import SpnegoRealm.Directory

/-! # Directories held in memory

A catalog is a directory given by its contents. Objects, groups and accounts are found under
their lowercased names. Keys can be marked as failing, so that questions about them have no
answer.
-/

namespace SpnegoRealm.Directory

/-- The contents of a directory, newest first under each lowercased key. -/
structure Catalog where
  entries : List (String × Entry) := []
  nested : List (String × List String) := []
  accounts : List (String × List String) := []
  failing : List String := []
  latency : Nat := 0

namespace Catalog

/-- The identifier of the groups in a catalog,
`S-1-5-21-1004336348-1177238915-682003330-512`. -/
def groupSid : Bytes :=
  [1, 5, 0, 0, 0, 0, 0, 5, 0x15, 0, 0, 0, 0xDC, 0xF4, 0xDC, 0x3B, 0x83, 0x3D, 0x2B, 0x46,
    0x82, 0x8B, 0xA6, 0x28, 0x00, 0x02, 0, 0]

/-- Add an object. -/
def withEntry (catalog : Catalog) (entry : Entry) : Catalog :=
  { catalog with
    entries := (Text.lowercase entry.distinguishedName, entry) :: catalog.entries }

/-- Add a group object. -/
def withGroup (catalog : Catalog) (dn : String) : Catalog :=
  catalog.withEntry
    { distinguishedName := dn, objectClass := ["top", "group"], objectSid := some groupSid }

/-- Add a user object. -/
def withUser (catalog : Catalog) (dn userPrincipalName : String) : Catalog :=
  catalog.withEntry
    { distinguishedName := dn
      objectClass := ["top", "person", "organizationalPerson", "user"]
      userPrincipalName := some userPrincipalName }

/-- Say which groups are the members of a group. -/
def withNested (catalog : Catalog) (group : String) (children : List String) : Catalog :=
  { catalog with nested := (Text.lowercase group, children) :: catalog.nested }

/-- Say which groups an account is a direct member of. -/
def withUserGroups (catalog : Catalog) (account : String) (groups : List String) : Catalog :=
  { catalog with
    accounts := (Text.lowercase account, groups.map Text.lowercase) :: catalog.accounts }

/-- Let every question about a key fail. -/
def failingOn (catalog : Catalog) (key : String) : Catalog :=
  { catalog with failing := Text.lowercase key :: catalog.failing }

/-- Whether questions about a key fail. -/
def fails (catalog : Catalog) (key : String) : Bool :=
  catalog.failing.contains (Text.lowercase key)

/-- Refuse a question about a failing key. -/
def check (catalog : Catalog) (key : String) : Except DirectoryError Unit :=
  if catalog.fails key then
    .error (.query ("injected failure for " ++ key))
  else
    .ok ()

/-- The member groups recorded under a lowercased name. -/
def children (catalog : Catalog) (key : String) : List String :=
  (catalog.nested.lookup key).getD []

/-- The direct groups recorded for an account. -/
def directGroups (catalog : Catalog) (account : String) : List String :=
  (catalog.accounts.lookup (Text.lowercase account)).getD []

/-- How many groups with recorded members have not been seen. -/
def unseen (catalog : Catalog) (seen : List String) : Nat :=
  (catalog.nested.filter fun pair => !seen.contains pair.1).length

private theorem filter_unseen_le (nested : List (String × List String)) (seen : List String)
    (group : String) :
    (nested.filter fun pair => !(group :: seen).contains pair.1).length ≤
      (nested.filter fun pair => !seen.contains pair.1).length := by
  rw [← List.countP_eq_length_filter, ← List.countP_eq_length_filter]
  refine List.countP_mono_left fun pair _ unseen => ?_
  simp only [List.contains_cons, Bool.not_or, Bool.and_eq_true] at unseen
  exact unseen.2

/-- Where a group with members is seen for the first time, fewer groups are unseen than before. -/
theorem unseen_cons_lt (catalog : Catalog) (seen : List String) (group : String)
    (fresh : seen.contains group = false) (known : catalog.children group ≠ []) :
    catalog.unseen (group :: seen) < catalog.unseen seen := by
  unfold unseen
  unfold children at known
  generalize catalog.nested = nested at known ⊢
  induction nested with
  | nil => simp at known
  | cons pair rest hypothesis =>
    have bound := filter_unseen_le rest seen group
    obtain ⟨key, value⟩ := pair
    simp only [List.filter_cons]
    by_cases same : group = key
    · subst same
      have met : ¬(!(group :: seen).contains group) = true := by simp
      have unmet : (!seen.contains group) = true := by simp only [fresh, Bool.not_false]
      rw [if_neg met, if_pos unmet]
      exact Nat.lt_succ_of_le bound
    · have found : (List.lookup group rest).getD [] ≠ [] := by
        simpa only [List.lookup_cons, beq_eq_false_iff_ne.mpr same] using known
      have smaller := hypothesis found
      have other : key ≠ group := fun equal => same equal.symm
      by_cases first : seen.contains key <;> simp_all

/-- Whether a direct group is found walking from the groups in the queue to their members. -/
def reaches (catalog : Catalog) (direct seen : List String) : List String → Bool
  | [] => false
  | group :: queue =>
    if direct.contains group then true
    else if seen.contains group then catalog.reaches direct seen queue
    else
      catalog.reaches direct (group :: seen)
        (queue ++ (catalog.children group).map Text.lowercase)
termination_by queue => (catalog.unseen seen, queue.length)
decreasing_by
  · exact Prod.Lex.right _ (by simp)
  · rename_i _ fresh
    by_cases leaf : catalog.children group = []
    · have bound : catalog.unseen (group :: seen) ≤ catalog.unseen seen :=
        filter_unseen_le catalog.nested seen group
      rcases Nat.lt_or_eq_of_le bound with less | equal
      · exact Prod.Lex.left _ _ less
      · rw [equal]
        exact Prod.Lex.right _ (by simp [leaf])
    · exact Prod.Lex.left _ _ (unseen_cons_lt catalog seen group (by simpa using fresh) leaf)

/-- Whether an account belongs to a group through any chain of groups. -/
def isMember (catalog : Catalog) (group account : String) : Bool :=
  catalog.reaches (catalog.directGroups account) [] [Text.lowercase group]

/-- The answers of a catalog. -/
def toDirectory (catalog : Catalog) : Directory where
  objectAttributes dn := do
    catalog.check dn
    return catalog.entries.lookup (Text.lowercase dn)
  memberGroups group := do
    catalog.check group
    return catalog.children (Text.lowercase group)
  userGroups account := do
    catalog.check account
    return catalog.directGroups account
  isMember group account := do
    catalog.check account
    return catalog.isMember group account
  latency := catalog.latency

end Catalog

/-- A directory in which some more objects are found under their exact names, before any other
object is. -/
def withExact (directory : Directory) (extra : List Entry) : Directory :=
  { directory with
    objectAttributes := fun dn =>
      match extra.find? (·.distinguishedName = dn) with
      | some entry => .ok (some entry)
      | none => directory.objectAttributes dn }

end SpnegoRealm.Directory
