import Mathlib.Data.List.Nodup
import SpnegoRealm.Settings.Environment

/-! # Values laid over each other

A table laid over another one keeps, under each name, the later value laid over the earlier one
(`SpnegoRealm.Settings.Value.lookup_fieldsOver`). An environment assigns values to paths. If each
of these leads to a field of its own, at the top or in one group, then the table that the
environment makes holds each value under its path and nothing else
(`SpnegoRealm.Settings.Value.Holds`), in whatever order the values were assigned.
-/

namespace SpnegoRealm.Settings

/-! ## Looking up -/

section Lookup

variable {κ β : Type} [BEq κ] [LawfulBEq κ] [DecidableEq κ] {key : κ} {content : β}
  {rows others : List (κ × β)}

/-- A key is looked up to the first row that has it. -/
theorem lookup_cons_eq_ite (row : κ × β) (rows : List (κ × β)) :
    List.lookup key (row :: rows) = if key = row.1 then some row.2 else rows.lookup key := by
  rw [List.lookup_cons]
  by_cases same : key = row.1
  · rw [if_pos same, beq_iff_eq.mpr same]
  · rw [if_neg same, beq_eq_false_iff_ne.mpr same]

omit [DecidableEq κ] in
/-- A key is found if and only if some row has it. -/
theorem lookup_isSome_iff : (rows.lookup key).isSome ↔ key ∈ rows.map Prod.fst := by
  simp only [List.lookup_isSome_iff, List.mem_map, beq_iff_eq, eq_comm (a := key)]

omit [DecidableEq κ] in
private theorem lookup_eq_none_iff_not_mem : rows.lookup key = none ↔ key ∉ rows.map Prod.fst := by
  rw [← lookup_isSome_iff, Option.not_isSome_iff_eq_none]

private theorem lookup_eq_some_iff_mem (distinct : (rows.map Prod.fst).Nodup) :
    rows.lookup key = some content ↔ (key, content) ∈ rows := by
  induction rows with
  | nil => exact iff_of_false (fun impossible => by cases impossible) List.not_mem_nil
  | cons row rest ih =>
      obtain ⟨missing, apart⟩ := List.nodup_cons.mp distinct
      rw [lookup_cons_eq_ite, List.mem_cons]
      by_cases here : key = row.1
      · subst here
        have elsewhere : (row.1, content) ∉ rest := fun member =>
          missing (List.mem_map.mpr ⟨_, member, rfl⟩)
        rw [if_pos rfl, or_iff_left elsewhere, Option.some_inj, Prod.ext_iff]
        exact ⟨fun same => ⟨rfl, same.symm⟩, fun same => same.2.symm⟩
      · have different : (key, content) ≠ row := fun same => here (congrArg Prod.fst same)
        rw [if_neg here, or_iff_right different, ih apart]

/-- Where each key has one row, the order of the rows makes no difference. -/
theorem lookup_eq_of_perm (distinct : (rows.map Prod.fst).Nodup) (same : rows.Perm others)
    (key : κ) : rows.lookup key = others.lookup key := by
  have distinct' : (others.map Prod.fst).Nodup := (same.map Prod.fst).nodup_iff.mp distinct
  refine Option.ext fun content => ?_
  rw [lookup_eq_some_iff_mem distinct, lookup_eq_some_iff_mem distinct', same.mem_iff]

end Lookup

namespace Value

variable {name other group : String} {value later : Value}
  {fields earlier inner : List (String × Value)}

/-! ## Fields under a name -/

private theorem lookup_setField (name : String) (value : Value) (fields : List (String × Value))
    (other : String) : (setField name value fields).lookup other =
      if other = name then some value else fields.lookup other := by
  induction fields with
  | nil => exact lookup_cons_eq_ite (name, value) []
  | cons field rest ih =>
      unfold setField
      split
      next here =>
        rw [lookup_cons_eq_ite, lookup_cons_eq_ite, here]
        split
        next => rfl
        next => rfl
      next elsewhere =>
        rw [lookup_cons_eq_ite, lookup_cons_eq_ite, ih]
        by_cases first : other = field.1
        · have different : other ≠ name := fun same => elsewhere (first.symm.trans same)
          rw [if_pos first, if_neg different, if_pos first]
        · rw [if_neg first, if_neg first]

private theorem mem_setField : other ∈ (setField name value fields).map Prod.fst ↔
    other = name ∨ other ∈ fields.map Prod.fst := by
  rw [← lookup_isSome_iff, lookup_setField, ← lookup_isSome_iff]
  by_cases same : other = name
  · simp [same]
  · simp [same]

private theorem nodup_setField (distinct : (fields.map Prod.fst).Nodup) :
    ((setField name value fields).map Prod.fst).Nodup := by
  induction fields with
  | nil => exact List.nodup_singleton name
  | cons field rest ih =>
      obtain ⟨missing, apart⟩ := List.nodup_cons.mp distinct
      unfold setField
      split
      next here => exact here ▸ distinct
      next elsewhere =>
        refine List.nodup_cons.mpr ⟨fun member => ?_, ih apart⟩
        rcases mem_setField.mp member with same | present
        · exact elsewhere same
        · exact missing present

/-! ## Tables over tables -/

/-- What is left of an earlier value, of which there may be none, and of a later one. -/
def laidOver? (earlier : Option Value) : Option Value → Option Value
  | none => earlier
  | some later => some (earlier.elim later (·.laidOver later))

/-- A value that is no table takes the place of an earlier one. -/
theorem laidOver?_of_ne_table (noTable : ∀ fields, later ≠ table fields) (earlier : Option Value) :
    laidOver? earlier (some later) = some later := by
  cases earlier with
  | none => rfl
  | some value =>
      unfold laidOver? laidOver
      cases later with
      | table fields => exact (noTable fields rfl).elim
      | _ => rfl

private theorem fieldOver_eq (earlier : List (String × Value)) (name : String) (later : Value) :
    fieldOver earlier (name, later) =
      setField name ((earlier.lookup name).elim later (·.laidOver later)) earlier := by
  unfold fieldOver
  cases earlier.lookup name with
  | none => rfl
  | some value => rfl

/-- A field laid over others changes what is looked up under its name and under no other. -/
theorem lookup_fieldOver (earlier : List (String × Value)) (name : String) (later : Value)
    (other : String) : (fieldOver earlier (name, later)).lookup other =
      if other = name then laidOver? (earlier.lookup name) (some later)
      else earlier.lookup other := by
  rw [fieldOver_eq, lookup_setField, laidOver?]

/-- **Tables are merged name by name.** -/
theorem lookup_fieldsOver (earlier : List (String × Value))
    (distinct : (fields.map Prod.fst).Nodup) (name : String) :
    (fieldsOver earlier fields).lookup name =
      laidOver? (earlier.lookup name) (fields.lookup name) := by
  induction fields generalizing earlier with
  | nil =>
      unfold fieldsOver
      rfl
  | cons field rest ih =>
      obtain ⟨missing, apart⟩ := List.nodup_cons.mp distinct
      obtain ⟨first, later⟩ := field
      unfold fieldsOver
      rw [ih _ apart, lookup_fieldOver, lookup_cons_eq_ite]
      by_cases here : name = first
      · subst here
        rw [if_pos rfl, if_pos rfl, lookup_eq_none_iff_not_mem.mpr missing]
        rfl
      · rw [if_neg here, if_neg here]

/-- A table is laid over a table field by field. -/
theorem laidOver_table (earlier fields : List (String × Value)) :
    (table earlier).laidOver (table fields) = table (fieldsOver earlier fields) := by
  unfold laidOver
  rfl

private theorem fieldsOver_singleton (earlier : List (String × Value)) (field : String × Value) :
    fieldsOver earlier [field] = fieldOver earlier field := by
  unfold fieldsOver fieldsOver
  rfl

/-! ## Assigned values -/

/-- A path to a field at the top, or to one of a group. -/
def Shallow (group : String) (path : List String) : Prop :=
  (∃ name, name ≠ group ∧ path = [name]) ∨ ∃ name, path = [group, name]

/-- The fields of a table are the values assigned to shallow paths. The group is there if a value is
assigned inside of it. -/
structure Holds (group : String) (assigned : List (List String × Value))
    (fields : List (String × Value)) : Prop where
  distinct : (fields.map Prod.fst).Nodup
  top : ∀ name, name ≠ group → fields.lookup name = assigned.lookup [name]
  inside : fields.lookup group = none ∧ (∀ name, assigned.lookup [group, name] = none) ∨
    ∃ inner, fields.lookup group = some (.table inner) ∧ (inner.map Prod.fst).Nodup ∧
      (∃ name, (assigned.lookup [group, name]).isSome) ∧
      ∀ name, inner.lookup name = assigned.lookup [group, name]

namespace Holds

variable {assigned rest : List (List String × Value)} {path : List String}

private theorem nil (group : String) : Holds group [] [] where
  distinct := .nil
  top _ _ := rfl
  inside := .inl ⟨rfl, fun _ => rfl⟩

private theorem lookup_append_singleton (fresh : path ∉ assigned.map Prod.fst) (value : Value)
    (place : List String) : (assigned ++ [(path, value)]).lookup place =
      if place = path then some value else assigned.lookup place := by
  rw [List.lookup_append, lookup_cons_eq_ite]
  by_cases here : place = path
  · rw [if_pos here, if_pos here, here, lookup_eq_none_iff_not_mem.mpr fresh, Option.none_or]
  · rw [if_neg here, if_neg here]
    exact Option.or_none

/-- A value assigned to a field at the top is put there. -/
theorem assign_top (holds : Holds group assigned fields) (different : name ≠ group)
    (fresh : [name] ∉ assigned.map Prod.fst) (value : Value) :
    Holds group (assigned ++ [([name], value)]) (fieldOver fields (name, value)) := by
  have missing : fields.lookup name = none := by
    rw [holds.top name different, lookup_eq_none_iff_not_mem]
    exact fresh
  have there (other : String) : (fieldOver fields (name, value)).lookup other =
      if other = name then some value else fields.lookup other := by
    rw [lookup_fieldOver, missing]
    rfl
  have within (other : String) : (assigned ++ [([name], value)]).lookup [group, other] =
      assigned.lookup [group, other] := by
    rw [lookup_append_singleton fresh, if_neg (by simp)]
  refine ⟨fieldOver_eq _ _ _ ▸ nodup_setField holds.distinct, fun other apart => ?_, ?_⟩
  · rw [there, lookup_append_singleton fresh, holds.top other apart]
    simp only [List.cons.injEq, and_true]
  · rw [there, if_neg different.symm]
    simp only [within]
    exact holds.inside

/-- A value assigned inside of the group is put there, and the group is made if it is not there. -/
theorem assign_inside (holds : Holds group assigned fields)
    (fresh : [group, name] ∉ assigned.map Prod.fst) (value : Value) :
    Holds group (assigned ++ [([group, name], value)])
      (fieldOver fields (group, table [(name, value)])) := by
  have there (other : String) : (assigned ++ [([group, name], value)]).lookup [group, other] =
      if other = name then some value else assigned.lookup [group, other] := by
    rw [lookup_append_singleton fresh]
    simp only [List.cons.injEq, true_and, and_true]
  refine ⟨fieldOver_eq _ _ _ ▸ nodup_setField holds.distinct, fun other apart => ?_, .inr ?_⟩
  · rw [lookup_fieldOver, if_neg apart, lookup_append_singleton fresh, if_neg (by simp),
      holds.top other apart]
  · have mine : ∃ other, ((assigned ++ [([group, name], value)]).lookup [group, other]).isSome :=
      ⟨name, by rw [there, if_pos rfl]; rfl⟩
    rw [lookup_fieldOver, if_pos rfl]
    rcases holds.inside with ⟨missing, unassigned⟩ | ⟨inner, present, distinct, -, held⟩
    · rw [missing]
      refine ⟨[(name, value)], rfl, List.nodup_singleton name, mine, fun other => ?_⟩
      rw [there, unassigned, lookup_cons_eq_ite]
      rfl
    · have absent : inner.lookup name = none := by
        rw [held, lookup_eq_none_iff_not_mem]
        exact fresh
      rw [present]
      refine ⟨fieldOver inner (name, value), ?_, fieldOver_eq _ _ _ ▸ nodup_setField distinct, mine,
        fun other => ?_⟩
      · rw [laidOver?, Option.elim_some, laidOver_table, fieldsOver_singleton]
      · rw [lookup_fieldOver, absent, there, held]
        rfl

/-- What one more value at a shallow path makes of a table. -/
theorem assign (holds : Holds group assigned fields) (shallow : Shallow group path)
    (fresh : path ∉ assigned.map Prod.fst) (value : Value) :
    ∃ more, (table fields).laidOver (atPath path value) = table more ∧
      Holds group (assigned ++ [(path, value)]) more := by
  rcases shallow with ⟨name, different, rfl⟩ | ⟨name, rfl⟩
  · refine ⟨_, ?_, holds.assign_top different fresh value⟩
    rw [← fieldsOver_singleton, ← laidOver_table]
    rfl
  · refine ⟨_, ?_, holds.assign_inside fresh value⟩
    rw [← fieldsOver_singleton, ← laidOver_table]
    rfl

/-- Values assigned to shallow paths, each of them once, can all be held. -/
theorem assign_all (holds : Holds group assigned fields)
    (shallow : ∀ row ∈ rest, Shallow group row.1)
    (distinct : ((assigned ++ rest).map Prod.fst).Nodup) :
    ∃ more, (rest.map fun row => atPath row.1 row.2).foldl laidOver (table fields) = table more ∧
      Holds group (assigned ++ rest) more := by
  induction rest generalizing assigned fields with
  | nil =>
      rw [List.append_nil]
      exact ⟨fields, rfl, holds⟩
  | cons row rest ih =>
      rw [List.append_cons] at distinct ⊢
      have fresh : row.1 ∉ assigned.map Prod.fst := by
        rw [List.map_append, List.map_append, List.nodup_append] at distinct
        have apart := (List.nodup_append.mp distinct.1).2.2
        exact fun member => apart row.1 member row.1 (by simp) rfl
      obtain ⟨more, laid, after⟩ := holds.assign (shallow row List.mem_cons_self) fresh row.2
      rw [List.map_cons, List.foldl_cons, laid]
      exact ih after (fun other member => shallow other (List.mem_cons_of_mem _ member)) distinct

end Holds

/-- **An overlay holds what is assigned.** -/
theorem exists_overlay_eq {assigned : List (List String × Value)}
    (shallow : ∀ row ∈ assigned, Shallow group row.1)
    (distinct : (assigned.map Prod.fst).Nodup) :
    ∃ fields, overlay (assigned.map fun row => atPath row.1 row.2) = table fields ∧
      Holds group assigned fields :=
  (Holds.nil group).assign_all shallow distinct

end Value

end SpnegoRealm.Settings
