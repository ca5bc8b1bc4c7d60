import SpnegoRealm.Text.Casing

/-! # Sets of roles

A role set holds lowercased role names, each once, in increasing order. Texts are ordered by
code point, which is the order of their UTF-8 bytes.
-/

namespace SpnegoRealm

/-- Insert a text into a strictly increasing list, if it is not there. -/
def insertSorted (text : String) : List String → List String
  | [] => [text]
  | first :: rest =>
    if text < first then text :: first :: rest
    else if text = first then first :: rest
    else first :: insertSorted text rest

/-- Whether a text is new to a strictly increasing list: the walk to its place does not meet it. -/
def isNewIn (text : String) : List String → Bool
  | [] => true
  | first :: rest =>
    if text < first then true
    else if text = first then false
    else isNewIn text rest

/-- A set of lowercased role names. -/
structure RoleSet where
  roles : List String
  deriving DecidableEq, Repr, Inhabited

namespace RoleSet

/-- The set without roles. -/
def empty : RoleSet := ⟨[]⟩

/-- The roles in increasing order. -/
def toList (set : RoleSet) : List String := set.roles

/-- The number of roles. -/
def size (set : RoleSet) : Nat := set.roles.length

/-- Whether there are no roles. -/
def isEmpty (set : RoleSet) : Bool := set.roles.isEmpty

/-- Whether a role is in the set, however its letters are cased. -/
def contains (set : RoleSet) (role : String) : Bool :=
  set.roles.contains (Text.lowercase role)

/-- Add a role, lowercased. -/
def insert (set : RoleSet) (role : String) : RoleSet :=
  ⟨insertSorted (Text.lowercase role) set.roles⟩

/-- The set of some roles. -/
def ofList (roles : List String) : RoleSet :=
  roles.foldl insert empty

/-- What is asked of a role set. -/
inductive Operation where
  | insert (role : String)
  | contains (role : String)
  deriving DecidableEq, Repr

/-- Perform an operation on a set: its answer, and the set after it. An insertion answers whether
the role is new. -/
def perform (set : RoleSet) : Operation → Bool × RoleSet
  | .insert role => (isNewIn (Text.lowercase role) set.roles, set.insert role)
  | .contains role => (set.contains role, set)

end RoleSet

end SpnegoRealm
