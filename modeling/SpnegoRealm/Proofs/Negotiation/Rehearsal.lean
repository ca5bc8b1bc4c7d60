import SpnegoRealm.Proofs.Negotiation.Gate
import SpnegoRealm.Proofs.Negotiation.Header

/-! # Rehearsals and credentials

A rehearsal lowercases the whole header before it looks for its words. It finds the words that begin
the trimmed header up to the case of ASCII letters, and no others
(`SpnegoRealm.Negotiation.startsWith_lowercase_iff`): the characters whose lowercase form reaches
into ASCII make no difference. A credential has a blank where the word of the last round goes on, so
no header is a credential for an acceptor and a last round for a rehearsal
(`SpnegoRealm.Negotiation.rehearsal_stays_apart`).
-/

namespace SpnegoRealm.Negotiation

open Text Rehearsal

/-- A text begins with a word, up to the case of ASCII letters. -/
def BeginsWith (word text : String) : Prop :=
  ∃ start rest : String, eqIgnoringAsciiCase start word = true ∧ text = start ++ rest

variable {word text header : String} {identity : Identity} {token : Bytes}

private theorem beginsWith_iff :
    BeginsWith word text ↔ word.toList.map Char.toLower <+: text.toList.map Char.toLower := by
  constructor
  · rintro ⟨start, rest, same, rfl⟩
    rw [← eqIgnoringAsciiCase_iff.mp same, String.toList_append, List.map_append]
    exact List.prefix_append _ _
  · rintro ⟨others, whole⟩
    obtain ⟨start, rest, split, same, _⟩ := List.map_eq_append_iff.mp whole.symm
    refine ⟨String.ofList start, String.ofList rest, ?_, ?_⟩
    · rw [eqIgnoringAsciiCase_iff, String.toList_ofList, same]
    · rw [← String.ofList_append, ← split, String.ofList_toList]

private theorem BeginsWith.of_prefix {shorter : String} (begins : BeginsWith word text)
    (shorten : shorter.toList <+: word.toList) : BeginsWith shorter text := by
  rw [beginsWith_iff] at begins ⊢
  exact (shorten.map Char.toLower).trans begins

/-- Of two words that begin the same text, the longer one begins with the shorter one. -/
theorem BeginsWith.prefix {longer : String} (shortBegins : BeginsWith word text)
    (longBegins : BeginsWith longer text) (length : word.toList.length ≤ longer.toList.length) :
    word.toList.map Char.toLower <+: longer.toList.map Char.toLower := by
  rw [beginsWith_iff] at shortBegins longBegins
  refine List.prefix_of_prefix_length_le shortBegins longBegins ?_
  rwa [List.length_map, List.length_map]

private theorem startsWith_iff {word characters : List Char} :
    startsWith word characters = true ↔ word <+: characters := by
  unfold startsWith
  rw [beq_iff_eq, List.prefix_iff_eq_take, eq_comm]

/-! ## The words of a rehearsal -/

/-- A word whose occurrence at the start of a text survives lowercasing, and is not made by it. -/
structure Lasting (word : String) : Prop where
  plain : ∀ c ∈ word.toList, c.toNat < 0x80 ∧ c ≠ 'k'
  ends : word.toList.getLast? ≠ some 'i'
  lower : word.toList.map Char.toLower = word.toList

private theorem lasting_negotiate : Lasting "negotiate" := by
  refine ⟨?_, by decide, by decide⟩
  simp

private theorem lasting_negotiate_c : Lasting "negotiate_c" := by
  refine ⟨?_, by decide, by decide⟩
  simp

/-- **A rehearsal finds words of ASCII.** Lowercasing a text in full makes no word and hides
none. -/
theorem startsWith_lowercase_iff (lasting : Lasting word) :
    startsWith word.toList (lowercase text).toList = true ↔ BeginsWith word text := by
  unfold lowercase
  rw [startsWith_iff, String.toList_ofList,
    Casing.prefix_lowerAfter_iff lasting.plain lasting.ends, beginsWith_iff, lasting.lower]

/-- A header that begins with the word of the last round authenticates the rehearsed principal. -/
theorem rehearse_of_last (last : BeginsWith "negotiate_c" (trim header)) :
    rehearse header = .ok (.authenticated ⟨principal, some (Token.plainText finalToken), []⟩) := by
  unfold rehearse
  exact if_pos ((startsWith_lowercase_iff lasting_negotiate_c).mpr last)

/-- A header that begins with the word of a round and not of the last one is to be continued. -/
theorem rehearse_of_word (begins : BeginsWith "negotiate" (trim header))
    (notLast : ¬ BeginsWith "negotiate_c" (trim header)) :
    rehearse header = .ok (.pending (Token.plainText pendingToken)) := by
  unfold rehearse
  have noLast := (startsWith_lowercase_iff lasting_negotiate_c).not.mpr notLast
  exact (if_neg noLast).trans (if_pos ((startsWith_lowercase_iff lasting_negotiate).mpr begins))

/-- A header that begins with no word is malformed. -/
theorem rehearse_of_no_word (other : ¬ BeginsWith "negotiate" (trim header)) :
    rehearse header = .error (.malformedHeader "expected a negotiate scheme") := by
  have notLast : ¬ BeginsWith "negotiate_c" (trim header) :=
    fun last => other (last.of_prefix (by decide))
  have noWord := (startsWith_lowercase_iff lasting_negotiate).not.mpr other
  have noLast := (startsWith_lowercase_iff lasting_negotiate_c).not.mpr notLast
  unfold rehearse
  exact (if_neg noLast).trans (if_neg noWord)

/-- A rehearsal accepts the headers that begin with the word of a round. -/
theorem rehearse_accepts_iff :
    (∃ outcome, rehearse header = .ok outcome) ↔ BeginsWith "negotiate" (trim header) := by
  constructor
  · rintro ⟨outcome, accepted⟩
    by_contra other
    rw [rehearse_of_no_word other] at accepted
    cases accepted
  · intro begins
    by_cases last : BeginsWith "negotiate_c" (trim header)
    · exact ⟨_, rehearse_of_last last⟩
    · exact ⟨_, rehearse_of_word begins last⟩

/-- A rehearsal authenticates the headers that begin with the word of the last round. -/
theorem rehearse_authenticates_iff :
    (∃ identity, rehearse header = .ok (.authenticated identity)) ↔
      BeginsWith "negotiate_c" (trim header) := by
  constructor
  · rintro ⟨identity, accepted⟩
    by_contra notLast
    have begins := rehearse_accepts_iff.mp ⟨_, accepted⟩
    rw [rehearse_of_word begins notLast] at accepted
    cases accepted
  · intro last
    exact ⟨_, rehearse_of_last last⟩

/-! ## Credentials -/

private theorem beginsWith_of_decodeHeader (decoded : decodeHeader header = .ok token) :
    BeginsWith "negotiate " (trim header) := by
  have read := (decodeHeader_eq_ok_iff.mp decoded).readHeader_eq
  cases found : afterScheme? (trimChars isBlank header.toList) with
  | none =>
      rw [readHeader_of_no_scheme found] at read
      cases read
  | some payload =>
      obtain ⟨start, named, whole⟩ := afterScheme?_eq_some_iff.mp found
      refine ⟨String.ofList start, String.ofList payload, ?_, ?_⟩
      · rw [eqIgnoringAsciiCase_iff, String.toList_ofList]
        exact named
      · rw [← String.ofList_append, ← whole, ← toList_trim, String.ofList_toList]

private theorem rehearse_of_decodeHeader (decoded : decodeHeader header = .ok token) :
    rehearse header = .ok (.pending (Token.plainText pendingToken)) := by
  have scheme := beginsWith_of_decodeHeader decoded
  apply rehearse_of_word (scheme.of_prefix (by decide))
  intro last
  -- the scheme goes on with a blank, the word of the last round with an underscore
  have impossible := scheme.prefix last (by decide)
  revert impossible
  decide

private theorem decodeHeader_of_rehearse
    (rehearsed : rehearse header = .ok (.authenticated identity)) :
    ∃ detail, decodeHeader header = .error (.malformedHeader detail) := by
  cases decoded : decodeHeader header with
  | ok token =>
      rw [rehearse_of_decodeHeader decoded] at rehearsed
      cases rehearsed
  | error error =>
      obtain ⟨detail, rfl⟩ := decodeHeader_error decoded
      exact ⟨detail, rfl⟩

/-- An acceptor does nothing about a malformed header. -/
theorem negotiate_of_malformed {detail : String}
    (malformed : decodeHeader header = .error (.malformedHeader detail)) (mechanism : Mechanism)
    (stripRealm : Bool) (directory : Directory) :
    Engine.negotiate ⟨.acceptor mechanism, stripRealm, directory⟩ (some header) =
      .atOnce (.error (.malformedHeader detail)) [] := by
  have decided : decision mechanism header = .error (.malformedHeader detail) :=
    decision_eq_error_iff.mpr (.malformed malformed)
  have lifeless : lifeOfContext mechanism header = [] := by
    unfold lifeOfContext
    rw [malformed]
  rw [negotiate_eq_atOnce]
  simp only [answerOf, eventsOf, decided, lifeless]
  rfl

/-- **Rehearsals stay apart.** A header that an acceptor decodes only asks a rehearsal for another
round. A header that a rehearsal authenticates is malformed for an acceptor, which opens no context
for it and does nothing else. A rehearsal accepts a header exactly if it begins with `negotiate`
once it is trimmed, and authenticates it exactly if it begins with `negotiate_c`, where the letters
may be in any case but have to be those of ASCII. -/
theorem rehearsal_stays_apart (header : String) :
    (∀ token, decodeHeader header = .ok token →
      rehearse header = .ok (.pending (Token.plainText pendingToken))) ∧
    (∀ identity, rehearse header = .ok (.authenticated identity) →
      ∃ detail, decodeHeader header = .error (.malformedHeader detail) ∧
        ∀ mechanism stripRealm directory start, ∃ trace,
          Engine.negotiate ⟨.acceptor mechanism, stripRealm, directory⟩ (some header) start =
            .ok trace ∧
          trace.value = .error (.malformedHeader detail) ∧ trace.events = []) ∧
    ((∃ outcome, rehearse header = .ok outcome) ↔ BeginsWith "negotiate" (trim header)) ∧
    ((∃ identity, rehearse header = .ok (.authenticated identity)) ↔
      BeginsWith "negotiate_c" (trim header)) := by
  refine ⟨fun _ => rehearse_of_decodeHeader, ?authenticated, rehearse_accepts_iff,
    rehearse_authenticates_iff⟩
  case authenticated =>
    intro identity rehearsed
    obtain ⟨detail, malformed⟩ := decodeHeader_of_rehearse rehearsed
    refine ⟨detail, malformed, ?_⟩
    intro mechanism stripRealm directory start
    rw [negotiate_of_malformed malformed]
    exact ⟨_, rfl, rfl, rfl⟩

example : rehearse "\tNegotiate_C \u212A" =
    .ok (.authenticated ⟨principal, some (Token.plainText finalToken), []⟩) := by decide +kernel

example : rehearse "negot\u0130ate_c" =
    .error (.malformedHeader "expected a negotiate scheme") := by decide +kernel

end SpnegoRealm.Negotiation
