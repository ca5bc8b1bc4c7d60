import Mathlib.Data.Finset.Card
import Mathlib.Data.List.Sort
import SpnegoRealm.Proofs.Text.ByteOrder
import SpnegoRealm.Proofs.Text.Casing
import SpnegoRealm.RoleSet

/-! # Sets of roles over any history

A role set tells its roles in strictly increasing order, so sets with the same roles are equal
(`SpnegoRealm.RoleSet.ext_of_sorted`). What a set holds after any number of operations are the
lowercased roles inserted until then (`SpnegoRealm.RoleSet.Collects`): an insertion adds one and a
question none (`SpnegoRealm.RoleSet.Collects.perform`). **Role sets are sets up to lowercasing** is
`SpnegoRealm.RoleSet.histories_collect_roles`; it needs that lowercasing twice is lowercasing once.
-/

namespace SpnegoRealm

variable {text role : String} {roles : List String} {set : RoleSet}

private theorem mem_insertSorted {other : String} :
    other ∈ insertSorted text roles ↔ other = text ∨ other ∈ roles := by
  induction roles with
  | nil => exact List.mem_cons
  | cons first rest ih =>
      unfold insertSorted
      split
      next => exact List.mem_cons
      next =>
        split
        next same =>
          subst same
          simp only [List.mem_cons, or_self_left]
        next =>
          rw [List.mem_cons, ih, List.mem_cons]
          exact or_left_comm

private theorem sorted_insertSorted (sorted : roles.Pairwise (· < ·)) (text : String) :
    (insertSorted text roles).Pairwise (· < ·) := by
  induction roles with
  | nil => exact List.pairwise_singleton _ _
  | cons first rest ih =>
      obtain ⟨least, later⟩ := List.pairwise_cons.mp sorted
      unfold insertSorted
      split
      next before =>
        refine List.pairwise_cons.mpr ⟨?_, sorted⟩
        intro other member
        rcases List.mem_cons.mp member with rfl | inRest
        · exact before
        · exact lt_trans before (least other inRest)
      next notBefore =>
        split
        next => exact sorted
        next different =>
          refine List.pairwise_cons.mpr ⟨?_, ih later⟩
          intro other member
          rcases mem_insertSorted.mp member with rfl | inRest
          · exact lt_of_le_of_ne (not_lt.mp notBefore) (Ne.symm different)
          · exact least other inRest

private theorem isNewIn_iff (sorted : roles.Pairwise (· < ·)) (text : String) :
    isNewIn text roles = true ↔ text ∉ roles := by
  induction roles with
  | nil => simp [isNewIn]
  | cons first rest ih =>
      obtain ⟨least, later⟩ := List.pairwise_cons.mp sorted
      unfold isNewIn
      split
      next before =>
        refine iff_of_true rfl fun member => ?_
        rcases List.mem_cons.mp member with rfl | inRest
        · exact lt_irrefl _ before
        · exact lt_asymm before (least text inRest)
      next =>
        split
        next same => exact iff_of_false Bool.false_ne_true fun missing => missing (by simp [same])
        next different => rw [ih later, List.mem_cons, or_iff_right different]

namespace RoleSet

private theorem mem_toList_insert :
    role ∈ (set.insert text).toList ↔ role = Text.lowercase text ∨ role ∈ set.toList :=
  mem_insertSorted

/-- Roles inserted one after the other join a set in lower case. -/
theorem mem_toList_foldl_insert :
    role ∈ (roles.foldl insert set).toList ↔
      role ∈ roles.map Text.lowercase ∨ role ∈ set.toList := by
  induction roles generalizing set with
  | nil => simp only [List.foldl_nil, List.map_nil, List.not_mem_nil, false_or]
  | cons first rest ih =>
      rw [List.foldl_cons, ih, mem_toList_insert, List.map_cons, List.mem_cons]
      exact or_left_comm.trans or_assoc.symm

/-- The set of some roles holds these in lower case. -/
theorem mem_toList_ofList : role ∈ (ofList roles).toList ↔ role ∈ roles.map Text.lowercase := by
  unfold ofList
  rw [mem_toList_foldl_insert]
  exact or_iff_left List.not_mem_nil

/-- Insertions keep the roles in the strict byte order. -/
theorem sorted_foldl_insert (sorted : set.toList.Pairwise (· < ·)) (roles : List String) :
    (roles.foldl insert set).toList.Pairwise (· < ·) := by
  induction roles generalizing set with
  | nil => exact sorted
  | cons first rest ih => exact ih (sorted_insertSorted sorted (Text.lowercase first))

/-- Sorted sets with the same roles are equal. -/
theorem ext_of_sorted {other : RoleSet} (sorted : set.toList.Pairwise (· < ·))
    (sorted' : other.toList.Pairwise (· < ·))
    (same : ∀ role, role ∈ set.toList ↔ role ∈ other.toList) : set = other := by
  have roles : set.toList = other.toList := sorted.eq_of_mem_iff sorted' same
  exact congrArg RoleSet.mk roles

/-! ## Histories -/

/-- The roles that an operation inserts. -/
def Operation.inserted : Operation → List String
  | .insert role => [role]
  | .contains _ => []

/-- The set after some operations. -/
def after (set : RoleSet) (history : List Operation) : RoleSet :=
  history.foldl (fun current operation => (current.perform operation).2) set

/-- A set holds the lowercased ones of some roles, in order. -/
structure Collects (inserted : List String) (set : RoleSet) : Prop where
  sorted : set.toList.Pairwise (· < ·)
  mem_iff : ∀ role, role ∈ set.toList ↔ role ∈ inserted.map Text.lowercase

namespace Collects

variable {inserted others : List String} {other : RoleSet}

private theorem ofList (roles : List String) : Collects roles (ofList roles) where
  sorted := sorted_foldl_insert .nil roles
  mem_iff _ := mem_toList_ofList

/-- An operation adds the lowercased form of the role that it inserts, if it inserts one. -/
theorem perform (collects : Collects inserted set) (operation : Operation) :
    Collects (inserted ++ operation.inserted) (set.perform operation).2 := by
  cases operation with
  | contains role =>
      rw [Operation.inserted, List.append_nil]
      exact collects
  | insert role =>
      refine ⟨sorted_insertSorted collects.sorted _, fun other => ?_⟩
      have member := collects.mem_iff other
      rw [RoleSet.perform, mem_toList_insert, member, Operation.inserted, List.map_append,
        List.map_singleton, List.mem_append, List.mem_singleton]
      exact or_comm

/-- After a history, a set collects what was inserted before and in it. -/
theorem after (collects : Collects inserted set) (history : List Operation) :
    Collects (inserted ++ history.flatMap Operation.inserted) (set.after history) := by
  induction history generalizing inserted set with
  | nil =>
      rw [List.flatMap_nil, List.append_nil]
      exact collects
  | cons operation rest ih =>
      rw [List.flatMap_cons, ← List.append_assoc]
      exact ih (collects.perform operation)

variable (collects : Collects inserted set)

include collects

private theorem lowercase_of_mem (member : role ∈ set.toList) : Text.lowercase role = role := by
  obtain ⟨origin, -, rfl⟩ := List.mem_map.mp ((collects.mem_iff role).mp member)
  exact Text.lowercase_lowercase origin

/-- A set contains the roles that differ from an inserted one in case only. -/
theorem contains_iff :
    set.contains role = true ↔ ∃ other ∈ inserted, Text.lowercase other = Text.lowercase role := by
  rw [contains, List.contains_iff_mem]
  exact (collects.mem_iff _).trans List.mem_map

/-- An insertion takes a role for new if and only if the set does not contain it. -/
theorem isNew_iff :
    isNewIn (Text.lowercase role) set.roles = true ↔ set.contains role = false := by
  have missing := isNewIn_iff collects.sorted (Text.lowercase role)
  rw [contains, Bool.eq_false_iff, ne_eq, List.contains_iff_mem]
  exact missing

/-- A set has as many roles as were inserted, up to their case. -/
theorem size_eq : set.size = (inserted.map Text.lowercase).toFinset.card := by
  have distinct : set.toList.Nodup := collects.sorted.imp ne_of_lt
  have same : set.toList.toFinset = (inserted.map Text.lowercase).toFinset := by
    ext role
    rw [List.mem_toFinset, List.mem_toFinset]
    exact collects.mem_iff role
  rw [← same, List.toFinset_card_of_nodup distinct]
  rfl

/-- Sets of roles that are the same up to case are equal. -/
theorem eq_of_same (collects' : Collects others other)
    (same : ∀ role, role ∈ inserted.map Text.lowercase ↔ role ∈ others.map Text.lowercase) :
    set = other := by
  refine ext_of_sorted collects.sorted collects'.sorted fun role => ?_
  rw [collects.mem_iff, collects'.mem_iff]
  exact same role

end Collects

/-- **Role sets are sets up to lowercasing.** Take the set of any roles, and insert and look up
roles in any order. Each role in the set is its own lowercase form, and the roles are told in
strictly increasing order of their bytes. The set contains a role if and only if some role with the
same lowercase form is among those that it was made of and those inserted. An insertion answers
that the role is new if and only if the set does not contain it, and a look-up changes nothing. The
set has as many roles as there are different lowercase forms, and it is equal to any other set
whose history inserts roles with the same lowercase forms, in whatever order and however often. -/
theorem histories_collect_roles (start : List String) (history : List Operation) :
    let set := (ofList start).after history
    let inserted := start ++ history.flatMap Operation.inserted
    (∀ role ∈ set.toList, Text.lowercase role = role) ∧
    (set.toList.map Text.utf8).Pairwise (· < ·) ∧
    (∀ role, set.contains role = true ↔
      ∃ other ∈ inserted, Text.lowercase other = Text.lowercase role) ∧
    (∀ role, ((set.perform (.insert role)).1 = true ↔ set.contains role = false) ∧
      set.perform (.contains role) = (set.contains role, set)) ∧
    set.size = (inserted.map Text.lowercase).toFinset.card ∧
    ∀ (otherStart : List String) (otherHistory : List Operation),
      (∀ role, role ∈ inserted.map Text.lowercase ↔
        role ∈ (otherStart ++ otherHistory.flatMap Operation.inserted).map Text.lowercase) →
      set = (ofList otherStart).after otherHistory := by
  intro set inserted
  have collects : Collects inserted set := (Collects.ofList start).after history
  refine ⟨?settled, ?ordered, ?contained, ?answered, collects.size_eq, ?equal⟩
  case settled => exact fun role member => collects.lowercase_of_mem member
  case ordered =>
    rw [List.pairwise_map]
    exact collects.sorted.imp Text.utf8_lt_utf8_iff.mpr
  case contained => exact fun role => collects.contains_iff
  case answered => exact fun role => ⟨collects.isNew_iff, rfl⟩
  case equal =>
    intro otherStart otherHistory same
    exact collects.eq_of_same ((Collects.ofList otherStart).after otherHistory) same

end RoleSet

end SpnegoRealm
