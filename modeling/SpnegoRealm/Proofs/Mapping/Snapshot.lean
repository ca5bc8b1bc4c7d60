import Mathlib.Data.List.Induction
import Mathlib.Data.List.Sort
import Mathlib.Data.String.Basic
import SpnegoRealm.Mapping.Snapshot

/-! # Role tables built from grants

A role table that is built from grants is sorted by name and has, for each name, the roles granted
to it: each once, in the order of the first grants (`SpnegoRealm.RoleTable.lookup_ofPairs`). A
snapshot consists of two such tables (`SpnegoRealm.Snapshot.groups_ofGrants` and
`SpnegoRealm.Snapshot.principals_ofGrants`).
-/

namespace SpnegoRealm

namespace RoleTable

/-! ## Lists of roles -/

private theorem addRole_of_mem {roles : List String} {role : String} (listed : role ∈ roles) :
    addRole roles role = roles :=
  if_pos (List.contains_iff_mem.mpr listed)

private theorem addRole_of_not_mem {roles : List String} {role : String} (missing : role ∉ roles) :
    addRole roles role = roles ++ [role] :=
  if_neg fun present => missing (List.contains_iff_mem.mp present)

private theorem mem_addRole_self (roles : List String) (role : String) :
    role ∈ addRole roles role := by
  by_cases listed : role ∈ roles
  · rwa [addRole_of_mem listed]
  · rw [addRole_of_not_mem listed]
    exact List.mem_append_right _ (List.mem_singleton_self role)

/-- Granting roles one after the other keeps the first grant of each. -/
theorem eraseDups_append_singleton (roles : List String) (role : String) :
    (roles ++ [role]).eraseDups = addRole roles.eraseDups role := by
  rw [List.eraseDups_append]
  by_cases listed : role ∈ roles
  · have removed : [role].removeAll roles = [] := by simp [List.removeAll, listed]
    rw [removed, List.eraseDups_nil, List.append_nil,
      addRole_of_mem (List.mem_eraseDups.mpr listed)]
  · have kept : [role].removeAll roles = [role] := by simp [List.removeAll, listed]
    rw [kept, addRole_of_not_mem (fun present => listed (List.mem_eraseDups.mp present))]
    rfl

private theorem foldl_addRole (roles : List String) : roles.foldl addRole [] = roles.eraseDups := by
  induction roles using List.reverseRecOn with
  | nil => rfl
  | append_singleton roles role ih =>
      rw [List.foldl_append, ih, eraseDups_append_singleton]
      rfl

/-- Granting one role several times is granting it once. -/
theorem foldl_addRole_of_const {role : String} (repeated roles : List String)
    (same : ∀ other ∈ repeated, other = role) :
    repeated.foldl addRole roles = if repeated = [] then roles else addRole roles role := by
  induction repeated generalizing roles with
  | nil => rfl
  | cons first rest ih =>
      obtain rfl := same first List.mem_cons_self
      rw [List.foldl_cons, ih _ fun other member => same other (List.mem_cons_of_mem _ member),
        addRole_of_mem (mem_addRole_self roles first), ite_self, if_neg (List.cons_ne_nil _ _)]

/-- If every item repeats a role or gives none, the items that give none can be left out and each
other item gives its role once. -/
theorem eraseDups_flatMap {α : Type} {given : α → List String} {role : α → String}
    {gives : α → Prop} [DecidablePred gives]
    (only : ∀ item other, other ∈ given item ↔ other = role item ∧ gives item) (items : List α) :
    (items.flatMap given).eraseDups = ((items.filter gives).map role).eraseDups := by
  rw [← foldl_addRole, ← foldl_addRole]
  generalize ([] : List String) = roles
  induction items generalizing roles with
  | nil => rfl
  | cons item items ih =>
      have repeated := foldl_addRole_of_const (given item) roles fun other member =>
        ((only item other).mp member).1
      rw [List.flatMap_cons, List.foldl_append, repeated, ih]
      by_cases holds : gives item
      · have listed : given item ≠ [] :=
          List.ne_nil_of_mem ((only item (role item)).mpr ⟨rfl, holds⟩)
        rw [if_neg listed, List.filter_cons, if_pos (decide_eq_true holds), List.map_cons,
          List.foldl_cons]
      · have none : given item = [] :=
          List.eq_nil_iff_forall_not_mem.mpr fun other member =>
            holds ((only item other).mp member).2
        rw [if_pos none, List.filter_cons, if_neg (by simpa using holds)]

/-! ## Rows -/

/-- The entry for a name with these roles: names without roles have none. -/
def present (roles : List String) : Option (List String) := if roles = [] then none else some roles

/-- The roles that a list answers are the list itself: an empty one only looks like none. -/
theorem getD_present (roles : List String) : (present roles).getD [] = roles := by
  unfold present
  split
  next none => rw [none]; rfl
  next => rfl

private theorem present_addRole (roles : List String) (role : String) :
    present (addRole roles role) = some (addRole roles role) :=
  if_neg (List.ne_nil_of_mem (mem_addRole_self roles role))

variable {rows : List (String × List String)} {name other role : String}

private theorem mem_keys_grantIn (member : other ∈ (grantIn name role rows).map Prod.fst) :
    other = name ∨ other ∈ rows.map Prod.fst := by
  induction rows with
  | nil => exact Or.inl (List.mem_singleton.mp member)
  | cons row rest ih =>
      unfold grantIn at member
      split at member
      next => exact List.mem_cons.mp member
      next =>
        split at member
        next same =>
          subst same
          exact Or.inr member
        next =>
          rcases List.mem_cons.mp member with rfl | later
          · exact Or.inr List.mem_cons_self
          · exact (ih later).imp_right (List.mem_cons_of_mem _)

private theorem sorted_grantIn (sorted : (rows.map Prod.fst).Pairwise (· < ·))
    (name role : String) :
    ((grantIn name role rows).map Prod.fst).Pairwise (· < ·) := by
  induction rows with
  | nil => exact List.pairwise_singleton _ _
  | cons row rest ih =>
      obtain ⟨first, later⟩ := List.pairwise_cons.mp sorted
      unfold grantIn
      split
      next before =>
        refine List.pairwise_cons.mpr ⟨?_, sorted⟩
        intro other member
        rcases List.mem_cons.mp member with rfl | inRest
        · exact before
        · exact lt_trans before (first other inRest)
      next notBefore =>
        split
        next same => exact List.pairwise_cons.mpr ⟨same ▸ first, later⟩
        next different =>
          refine List.pairwise_cons.mpr ⟨?_, ih later⟩
          intro other member
          rcases mem_keys_grantIn member with rfl | inRest
          · exact lt_of_le_of_ne (not_lt.mp notBefore) (Ne.symm different)
          · exact first other inRest

private theorem lookup_cons_of_eq {row : String × List String} (same : other = row.1) :
    (row :: rows).lookup other = some row.2 := by
  rw [List.lookup_cons, same, beq_self_eq_true]

private theorem lookup_cons_of_ne {row : String × List String} (different : other ≠ row.1) :
    (row :: rows).lookup other = rows.lookup other := by
  rw [List.lookup_cons, beq_eq_false_iff_ne.mpr different]

private theorem lookup_eq_none_of_lt (before : ∀ key ∈ rows.map Prod.fst, name < key) :
    rows.lookup name = none := by
  rw [List.lookup_eq_none_iff]
  intro row member
  have less := before row.1 (List.mem_map_of_mem member)
  simpa using ne_of_lt less

/-- A grant changes the row of its name alone. -/
theorem lookup_grantIn (sorted : (rows.map Prod.fst).Pairwise (· < ·)) (name role other : String) :
    (grantIn name role rows).lookup other =
      if other = name then some (addRole ((rows.lookup name).getD []) role)
      else rows.lookup other := by
  induction rows with
  | nil =>
      unfold grantIn
      split
      next same => exact lookup_cons_of_eq same
      next different => exact lookup_cons_of_ne different
  | cons row rest ih =>
      obtain ⟨first, later⟩ := List.pairwise_cons.mp sorted
      unfold grantIn
      split
      next before =>
        have absent : (row :: rest).lookup name = none := by
          refine lookup_eq_none_of_lt fun key member => ?_
          rcases List.mem_cons.mp member with rfl | inRest
          · exact before
          · exact lt_trans before (first key inRest)
        rw [absent]
        split
        next same => exact lookup_cons_of_eq same
        next different => exact lookup_cons_of_ne different
      next notBefore =>
        split
        next here =>
          rw [lookup_cons_of_eq here, Option.getD_some]
          split
          next same => exact lookup_cons_of_eq same
          next different =>
            rw [lookup_cons_of_ne different, lookup_cons_of_ne (here ▸ different)]
        next elsewhere =>
          rw [lookup_cons_of_ne elsewhere]
          by_cases atRow : other = row.1
          · have different : other ≠ name := atRow ▸ Ne.symm elsewhere
            rw [if_neg different, lookup_cons_of_eq atRow, lookup_cons_of_eq atRow]
          · rw [lookup_cons_of_ne atRow, lookup_cons_of_ne atRow, ih later]

private theorem mem_rows_iff (sorted : (rows.map Prod.fst).Pairwise (· < ·))
    (row : String × List String) :
    row ∈ rows ↔ rows.lookup row.1 = some row.2 := by
  rw [List.lookup_eq_some_iff]
  constructor
  · intro member
    obtain ⟨before, after, rfl⟩ := List.append_of_mem member
    rw [List.map_append, List.pairwise_append] at sorted
    refine ⟨before, after, rfl, fun other earlier => ?_⟩
    have less := sorted.2.2 other.1 (List.mem_map_of_mem earlier) row.1 List.mem_cons_self
    simpa using ne_of_gt less
  · rintro ⟨before, after, rfl, -⟩
    exact List.mem_append_right _ List.mem_cons_self

/-- A sorted table is determined by the roles of all names. -/
theorem ext_of_sorted {first second : RoleTable}
    (sorted : (first.rows.map Prod.fst).Pairwise (· < ·))
    (sorted' : (second.rows.map Prod.fst).Pairwise (· < ·))
    (same : ∀ name, first.rows.lookup name = second.rows.lookup name) : first = second := by
  have byName {rows : List (String × List String)} (sorted : (rows.map Prod.fst).Pairwise (· < ·)) :
      rows.Pairwise (Order.Preimage Prod.fst (· < ·)) := (List.pairwise_map (f := Prod.fst)).mp sorted
  have rows : first.rows = second.rows := by
    refine (byName sorted).eq_of_mem_iff (byName sorted') fun row => ?_
    rw [mem_rows_iff sorted, mem_rows_iff sorted', same]
  exact congrArg RoleTable.mk rows

/-! ## Tables -/

/-- The table of some grants of roles to names. -/
def ofPairs (pairs : List (String × String)) : RoleTable :=
  pairs.foldl (fun table pair => table.grant pair.1 pair.2) empty

/-- The roles granted to one name, in the order of the grants. -/
def granted (name : String) (pairs : List (String × String)) : List String :=
  (pairs.filter (·.1 = name)).map (·.2)

/-- A role is granted to a name if and only if some pair says so. -/
theorem mem_granted {pairs : List (String × String)} :
    role ∈ granted name pairs ↔ (name, role) ∈ pairs := by
  simp only [granted, List.mem_map, List.mem_filter, decide_eq_true_eq]
  constructor
  · rintro ⟨pair, ⟨member, rfl⟩, rfl⟩
    exact member
  · intro member
    exact ⟨(name, role), ⟨member, rfl⟩, rfl⟩

private theorem ofPairs_append_singleton (pairs : List (String × String)) (pair : String × String) :
    ofPairs (pairs ++ [pair]) = (ofPairs pairs).grant pair.1 pair.2 := by
  unfold ofPairs
  rw [List.foldl_append]
  rfl

/-- The rows of every table that grants build stand in the byte order of their names. -/
theorem sorted_ofPairs (pairs : List (String × String)) :
    ((ofPairs pairs).rows.map Prod.fst).Pairwise (· < ·) := by
  induction pairs using List.reverseRecOn with
  | nil => exact .nil
  | append_singleton pairs pair ih =>
      rw [ofPairs_append_singleton]
      exact sorted_grantIn ih pair.1 pair.2

/-- Each name has the roles granted to it, each once and in the order of the first grants. -/
theorem lookup_ofPairs (pairs : List (String × String)) (name : String) :
    (ofPairs pairs).rows.lookup name = present (granted name pairs).eraseDups := by
  induction pairs using List.reverseRecOn with
  | nil => rfl
  | append_singleton pairs pair ih =>
      rw [ofPairs_append_singleton]
      refine (lookup_grantIn (sorted_ofPairs pairs) pair.1 pair.2 name).trans ?_
      unfold granted at ih ⊢
      rw [List.filter_append, List.map_append]
      by_cases same : name = pair.1
      · subst same
        have kept : [pair].filter (fun other => other.1 = pair.1) = [pair] := by simp
        rw [if_pos rfl, ih, getD_present, kept, List.map_singleton, eraseDups_append_singleton,
          present_addRole]
      · have dropped : [pair].filter (fun other => other.1 = name) = [] := by
          simpa using Ne.symm same
        rw [if_neg same, ih, dropped, List.map_nil, List.append_nil]

end RoleTable

/-! ## Snapshots -/

namespace Grant

/-- The role that a grant gives to the members of a group, under the lowercased name. -/
def groupPair? : Grant → Option (String × String)
  | principal _ _ => none
  | group dn role => some (Text.lowercase dn, role)

/-- The role that a grant gives to a principal. -/
def principalPair? : Grant → Option (String × String)
  | principal name role => some (name, role)
  | group _ _ => none

end Grant

namespace Snapshot

private theorem ofGrants_append_singleton (grants : List Grant) (grant : Grant) :
    ofGrants (grants ++ [grant]) = (ofGrants grants).add grant := by
  unfold ofGrants
  rw [List.foldl_append]
  rfl

/-- The groups of a snapshot are the table of all that the grants give to groups. -/
theorem groups_ofGrants (grants : List Grant) :
    (ofGrants grants).groups = RoleTable.ofPairs (grants.filterMap Grant.groupPair?) := by
  induction grants using List.reverseRecOn with
  | nil => rfl
  | append_singleton grants grant ih =>
      rw [ofGrants_append_singleton, List.filterMap_append]
      cases grant with
      | principal name role =>
          refine ih.trans (congrArg RoleTable.ofPairs ?_)
          exact (List.append_nil _).symm
      | group dn role =>
          refine Eq.trans ?_ (RoleTable.ofPairs_append_singleton _ _).symm
          exact congrArg (RoleTable.grant · (Text.lowercase dn) role) ih

/-- The principals of a snapshot are the table of all that the grants give to principals. -/
theorem principals_ofGrants (grants : List Grant) :
    (ofGrants grants).principals = RoleTable.ofPairs (grants.filterMap Grant.principalPair?) := by
  induction grants using List.reverseRecOn with
  | nil => rfl
  | append_singleton grants grant ih =>
      rw [ofGrants_append_singleton, List.filterMap_append]
      cases grant with
      | principal name role =>
          refine Eq.trans ?_ (RoleTable.ofPairs_append_singleton _ _).symm
          exact congrArg (RoleTable.grant · name role) ih
      | group dn role =>
          refine ih.trans (congrArg RoleTable.ofPairs ?_)
          exact (List.append_nil _).symm

end Snapshot

end SpnegoRealm
