import SpnegoRealm.Path

/-! # The names among the components of paths

A path is cut into pieces at its slashes. Its components are the pieces that count, and among these the
names are those that have no meaning of their own (`SpnegoRealm.Path.name_mem_components_iff`).
-/

namespace SpnegoRealm.Path

variable {path piece : Bytes}

private theorem pieces_ne_nil (path : Bytes) : pieces path ≠ [] := by
  cases path with
  | nil => exact List.cons_ne_nil _ _
  | cons byte rest =>
      unfold pieces
      split
      next => exact List.cons_ne_nil _ _
      next => split <;> exact List.cons_ne_nil _ _

/-- A slash stands between the pieces before it and those behind it. -/
theorem pieces_append_slash (path rest : Bytes) :
    pieces (path ++ slash :: rest) = pieces path ++ pieces rest := by
  induction path with
  | nil => exact if_pos rfl
  | cons byte others ih =>
      rw [List.cons_append, pieces, pieces, ih]
      split
      next => rfl
      next =>
        cases split : pieces others with
        | nil => exact (pieces_ne_nil others split).elim
        | cons => rfl

/-- A path without a slash is one piece. -/
theorem pieces_of_not_mem (whole : slash ∉ piece) : pieces piece = [piece] := by
  induction piece with
  | nil => rfl
  | cons byte rest ih =>
      have other : byte ≠ slash := fun same => whole (same ▸ List.mem_cons_self)
      rw [pieces, if_neg other, ih fun further => whole (List.mem_cons_of_mem _ further)]

/-- What the first piece of a path stands for, given the others. -/
def opening (first : Bytes) (others : List Bytes) : List Component :=
  if first = [] ∧ others ≠ [] then [.root]
  else if first = [dot] then [.current]
  else (component? first).toList

/-- The first piece of a path is its opening, and each of the others is one component or none. -/
theorem components_of_pieces {first : Bytes} {others : List Bytes}
    (split : pieces path = first :: others) :
    components path = opening first others ++ others.filterMap component? := by
  unfold components opening
  rw [split]
  by_cases rooted : first = [] ∧ others ≠ []
  · simp only [if_pos rooted, List.singleton_append]
  · by_cases here : first = [dot]
    · simp only [if_neg rooted, if_pos here, List.singleton_append]
    · simp only [if_neg rooted, if_neg here]

/-- What holds of paths without a slash, and of two paths with a slash between them if it holds of
both, holds of all paths. -/
theorem slash_induction {motive : Bytes → Prop} (whole : ∀ piece, slash ∉ piece → motive piece)
    (join : ∀ before after, motive before → motive after → motive (before ++ slash :: after))
    (path : Bytes) : motive path := by
  induction count : path.length using Nat.strongRecOn generalizing path with
  | ind count shorter =>
      subst count
      by_cases split : slash ∈ path
      · obtain ⟨before, after, rfl⟩ := List.append_of_mem split
        refine join before after (shorter _ ?_ before rfl) (shorter _ ?_ after rfl) <;>
          simp only [List.length_append, List.length_cons] <;> omega
      · exact whole path split

/-- The pieces of a path that count for nothing or have a meaning of their own. -/
def IsSpecial (piece : Bytes) : Prop := piece = [] ∨ piece = [dot] ∨ piece = [dot, dot]

private theorem component?_eq_name_iff {name : Bytes} :
    component? piece = some (.name name) ↔ piece = name ∧ ¬ IsSpecial piece := by
  unfold component? IsSpecial
  by_cases here : piece = [] ∨ piece = [dot]
  · rw [if_pos here]
    refine iff_of_false (fun impossible => by cases impossible) fun plain => plain.2 ?_
    exact here.imp_right Or.inl
  · rw [if_neg here]
    by_cases above : piece = [dot, dot]
    · rw [if_pos above]
      refine iff_of_false (fun impossible => by cases impossible) fun plain => plain.2 ?_
      exact Or.inr (Or.inr above)
    · rw [if_neg above, Option.some.injEq, Component.name.injEq]
      refine (and_iff_left ?_).symm
      rintro (empty | dotted | doubled)
      · exact here (Or.inl empty)
      · exact here (Or.inr dotted)
      · exact above doubled

/-- The names among the components of a path are its pieces that are not special. -/
theorem name_mem_components_iff {name : Bytes} :
    .name name ∈ components path ↔ name ∈ pieces path ∧ ¬ IsSpecial name := by
  cases split : pieces path with
  | nil => exact (pieces_ne_nil path split).elim
  | cons first others =>
      have opens : .name name ∈ opening first others ↔ component? first = some (.name name) := by
        unfold opening
        by_cases rooted : first = [] ∧ others ≠ []
        · simp [rooted, component?]
        · by_cases here : first = [dot]
          · simp [here, component?]
          · rw [if_neg rooted, if_neg here, Option.mem_toList]
      rw [components_of_pieces split, List.mem_append, opens, List.mem_filterMap, List.mem_cons,
        component?_eq_name_iff]
      constructor
      · rintro (⟨rfl, plain⟩ | ⟨piece, member, named⟩)
        · exact ⟨Or.inl rfl, plain⟩
        · obtain ⟨rfl, plain⟩ := component?_eq_name_iff.mp named
          exact ⟨Or.inr member, plain⟩
      · rintro ⟨rfl | member, plain⟩
        · exact Or.inl ⟨rfl, plain⟩
        · exact Or.inr ⟨name, member, component?_eq_name_iff.mpr ⟨rfl, plain⟩⟩

end SpnegoRealm.Path
