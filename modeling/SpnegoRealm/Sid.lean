import SpnegoRealm.Text.Utf8

/-! # Security identifiers

The binary form is a revision byte, a byte that counts the sub-authorities, six bytes of
authority with the most significant first, and four bytes for each sub-authority with the least
significant first. The text form is `S-revision-authority-sub-…`, all in decimal.
-/

namespace SpnegoRealm

/-- A security identifier. -/
structure Sid where
  revision : Nat
  authority : Nat
  subAuthorities : List Nat
  deriving DecidableEq, Repr

namespace Sid

/-- The number that bytes write with the most significant first. -/
def bigEndian (bytes : Bytes) : Nat :=
  bytes.foldl (fun value byte => value * 256 + byte.toNat) 0

/-- The number that bytes write with the least significant first. -/
def littleEndian : Bytes → Nat
  | [] => 0
  | byte :: rest => byte.toNat + 256 * littleEndian rest

/-- Read some four-byte numbers; what follows them is ignored. -/
def subAuthorities? : Nat → Bytes → Option (List Nat)
  | 0, _ => some []
  | count + 1, a :: b :: c :: d :: rest =>
    (subAuthorities? count rest).map (littleEndian [a, b, c, d] :: ·)
  | _ + 1, _ => none

/-- Read the binary form; `none` if it is too short for its count. -/
def ofBytes? : Bytes → Option Sid
  | revision :: count :: a :: b :: c :: d :: e :: f :: rest =>
    (subAuthorities? count.toNat rest).map fun subs =>
      ⟨revision.toNat, bigEndian [a, b, c, d, e, f], subs⟩
  | _ => none

/-- The text form. -/
def text (sid : Sid) : String :=
  sid.subAuthorities.foldl (fun sofar sub => s!"{sofar}-{sub}")
    s!"S-{sid.revision}-{sid.authority}"

/-- The text form of a binary identifier. -/
def decode (bytes : Bytes) : Option String :=
  (ofBytes? bytes).map text

end Sid

end SpnegoRealm
