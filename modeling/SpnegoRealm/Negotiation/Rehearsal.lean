import SpnegoRealm.Error
import SpnegoRealm.Negotiation.Outcome
import SpnegoRealm.Text.Blank
import SpnegoRealm.Text.Casing

/-! # Rehearsed negotiation

A fixed protocol of two rounds that needs no key. The word `negotiate` is answered with a token
for another round; the word `negotiate_c` authenticates a fixed principal. What follows the word
does not matter, nor does the case of its letters.
-/

namespace SpnegoRealm.Negotiation

namespace Rehearsal

/-- The principal that a rehearsal authenticates. -/
def principal : String := "mock_principal"

/-- The token of the last round. -/
def finalToken : String := "finaly negotiate token"

/-- The token that asks for another round. -/
def pendingToken : String := "mocked non _c negotiate"

/-- The word of every round. -/
def word : List Char := "negotiate".toList

/-- The word of the last round. -/
def finalWord : List Char := "negotiate_c".toList

/-- Whether characters start with a word. -/
def startsWith (word characters : List Char) : Bool :=
  characters.take word.length == word

end Rehearsal

open Rehearsal in
/-- Answer one round of a rehearsal. -/
def rehearse (header : String) : Except NegotiationError Outcome :=
  let scheme := (Text.lowercase (Text.trim header)).toList
  if startsWith finalWord scheme then
    .ok (.authenticated ⟨principal, some (Token.plainText finalToken), []⟩)
  else if startsWith word scheme then
    .ok (.pending (Token.plainText pendingToken))
  else
    .error (.malformedHeader "expected a negotiate scheme")

end SpnegoRealm.Negotiation
