import SpnegoRealm.Text.Utf8

/-! # Paths as sequences of components

A path is a byte string. Two paths name the same place when their components agree: repeated
and trailing slashes count for nothing, nor does a `.` except at the very start of a relative
path. A `..` stays, because what it means depends on links.
-/

namespace SpnegoRealm.Path

/-- One step of a path. -/
inductive Component where
  | root
  | current
  | parent
  | name (bytes : Bytes)
  deriving DecidableEq, Repr

/-- The byte that separates components. -/
def slash : UInt8 := 0x2F

/-- The byte of a full stop. -/
def dot : UInt8 := 0x2E

/-- The pieces between slashes. -/
def pieces : Bytes → List Bytes
  | [] => [[]]
  | byte :: rest =>
    if byte = slash then
      [] :: pieces rest
    else
      match pieces rest with
      | [] => [[byte]]
      | piece :: others => (byte :: piece) :: others

/-- The component that a piece names, if it counts. -/
def component? (piece : Bytes) : Option Component :=
  if piece = [] ∨ piece = [dot] then none
  else if piece = [dot, dot] then some .parent
  else some (.name piece)

/-- The components of a path. -/
def components (path : Bytes) : List Component :=
  match pieces path with
  | [] => []
  | first :: others =>
    let named := others.filterMap component?
    if first = [] ∧ others ≠ [] then .root :: named
    else if first = [dot] then .current :: named
    else (component? first).toList ++ named

/-- Whether two paths name the same place. -/
def same (left right : Bytes) : Bool :=
  components left == components right

/-- The name of the file that a path points at, if its last component is a name. -/
def fileName? (path : Bytes) : Option Bytes :=
  match (components path).getLast? with
  | some (.name bytes) => some bytes
  | _ => none

end SpnegoRealm.Path
