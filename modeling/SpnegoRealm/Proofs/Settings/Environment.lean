import SpnegoRealm.Proofs.Settings.Overlay
import SpnegoRealm.Proofs.Text.Blank

/-! # What an environment assigns

A variable assigns a value to a path if its name, without the blanks at its ends, begins with the
marker in any case of its letters; other variables assign nothing
(`SpnegoRealm.Settings.Variable.path?_of_not_marked`). The case of the letters in the rest of the
name does not matter either (`SpnegoRealm.Settings.Variable.path?_eq_of_name`). What the fields of
a file come to under an environment is told by what the environment assigns to each path
(`SpnegoRealm.Settings.exists_merges`).
-/

namespace SpnegoRealm.Settings

open Text (eqIgnoringAsciiCase)

namespace Variable

variable {entry other : Variable}

/-- The name of a variable begins with the marker, in any case of its letters. Blanks at the ends
of a name do not count. -/
def Marked (entry : Variable) : Prop :=
  ∃ start rest : String, eqIgnoringAsciiCase start "KERBEROS_REALM__" = true ∧
    Text.trim entry.name = start ++ rest

/-- A variable without the marker sets nothing. -/
theorem path?_of_not_marked (unmarked : ¬ entry.Marked) : entry.path? = none := by
  refine if_neg fun begins => unmarked ?_
  rw [← Text.toList_trim, ← List.map_take] at begins
  refine ⟨String.ofList ((Text.trim entry.name).toList.take marker.length),
    String.ofList ((Text.trim entry.name).toList.drop marker.length), ?_, ?_⟩
  · rw [Text.eqIgnoringAsciiCase_iff, String.toList_ofList, begins]
    decide
  · rw [← String.ofList_append, List.take_append_drop, String.ofList_toList]

/-- The case of the letters of a name does not matter. -/
theorem path?_eq_of_name (same : eqIgnoringAsciiCase entry.name other.name = true) :
    entry.path? = other.path? := by
  have lower := Text.eqIgnoringAsciiCase_iff.mp same
  unfold path?
  rw [← Text.trimChars_map Text.isBlank_toLower, ← Text.trimChars_map Text.isBlank_toLower, lower]

/-- What a variable assigns: a value to a path. -/
def assignment? (entry : Variable) : Option (List String × Value) :=
  entry.path?.map (·, Inline.read entry.value)

end Variable

/-- What the variables of an environment assign. -/
def assignments (environment : List Variable) : List (List String × Value) :=
  environment.filterMap Variable.assignment?

/-- An environment assigns to the paths of its variables. -/
theorem map_fst_assignments (environment : List Variable) :
    (assignments environment).map Prod.fst = environment.filterMap Variable.path? := by
  unfold assignments
  rw [List.map_filterMap]
  refine List.filterMap_congr fun entry _ => ?_
  unfold Variable.assignment?
  cases entry.path? with
  | none => rfl
  | some path => rfl

private theorem ofEnvironment_eq (environment : List Variable) : ofEnvironment environment =
    Value.overlay ((assignments environment).map fun row => Value.atPath row.1 row.2) := by
  unfold ofEnvironment assignments
  rw [List.map_filterMap]
  refine congrArg _ (List.filterMap_congr fun entry _ => ?_)
  unfold Variable.settings? Variable.assignment?
  cases entry.path? with
  | none => rfl
  | some path => rfl

/-! ## Files under environments -/

open Value (Shallow laidOver?)

variable {group : String} {fields : List (String × Value)}
  {assigned : List (List String × Value)}

/-- The field of a group that is a table. -/
def inGroup (group : String) (fields : List (String × Value)) (name : String) : Option Value :=
  match fields.lookup group with
  | some (.table inner) => inner.lookup name
  | _ => none

private theorem none_laidOver? (later : Option Value) : laidOver? none later = later := by
  cases later with
  | none => rfl
  | some value => rfl

/-- A table lies over the fields of the group, of which there are none if the group is no table. -/
theorem exists_laidOver?_group (group : String) (fields : List (String × Value))
    {inner : List (String × Value)} (distinct : (inner.map Prod.fst).Nodup) :
    ∃ merged, laidOver? (fields.lookup group) (some (.table inner)) = some (.table merged) ∧
      ∀ name, merged.lookup name = laidOver? (inGroup group fields name) (inner.lookup name) := by
  unfold inGroup
  split
  next earlier present =>
    refine ⟨Value.fieldsOver earlier inner, ?_, Value.lookup_fieldsOver earlier distinct⟩
    rw [present, laidOver?, Option.elim_some, Value.laidOver_table]
  next noTable =>
    refine ⟨inner, ?_, fun name => (none_laidOver? _).symm⟩
    cases held : fields.lookup group with
    | none => rfl
    | some value =>
        have replaced : value.laidOver (.table inner) = .table inner := by
          unfold Value.laidOver
          cases value with
          | table earlier => exact (noTable earlier held).elim
          | _ => rfl
        rw [laidOver?, Option.elim_some, replaced]

/-- The fields of a file come to others under assigned values: each value lies over the field at
its path. A group inside of which no value is assigned stays what it is; otherwise it becomes a
table. -/
structure Merges (group : String) (fields : List (String × Value))
    (assigned : List (List String × Value)) (merged : List (String × Value)) : Prop where
  top : ∀ name, name ≠ group →
    merged.lookup name = laidOver? (fields.lookup name) (assigned.lookup [name])
  untouched : (∀ name, assigned.lookup [group, name] = none) →
    merged.lookup group = fields.lookup group
  touched : ∀ name, (assigned.lookup [group, name]).isSome →
    ∃ inner, merged.lookup group = some (.table inner) ∧
      ∀ other, inner.lookup other =
        laidOver? (inGroup group fields other) (assigned.lookup [group, other])

/-- **Files under environments.** -/
theorem exists_merges {environment : List Variable}
    (shallow : ∀ row ∈ assignments environment, Shallow group row.1)
    (distinct : ((assignments environment).map Prod.fst).Nodup) (fields : List (String × Value)) :
    ∃ merged, (Value.table fields).laidOver (ofEnvironment environment) = .table merged ∧
      Merges group fields (assignments environment) merged := by
  obtain ⟨laid, overlay, holds⟩ := Value.exists_overlay_eq shallow distinct
  rw [ofEnvironment_eq, overlay, Value.laidOver_table]
  have found := Value.lookup_fieldsOver fields holds.distinct
  refine ⟨_, rfl, ?top, ?untouched, ?touched⟩
  case top =>
    intro name different
    rw [found, holds.top name different]
  case untouched =>
    intro unassigned
    rcases holds.inside with ⟨missing, -⟩ | ⟨_, -, -, ⟨name, some⟩, -⟩
    · rw [found, missing]
      rfl
    · rw [unassigned] at some
      cases some
  case touched =>
    intro name some
    rcases holds.inside with ⟨-, none⟩ | ⟨inner, present, separate, -, held⟩
    · rw [none] at some
      cases some
    · obtain ⟨merged, made, lies⟩ := exists_laidOver?_group group fields separate
      refine ⟨merged, ?_, fun other => ?_⟩
      · rw [found, present, made]
      · rw [lies, held]

end SpnegoRealm.Settings
