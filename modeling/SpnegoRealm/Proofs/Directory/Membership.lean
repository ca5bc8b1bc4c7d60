import SpnegoRealm.Proofs.Groups.Distance
import SpnegoRealm.Proofs.Text.Casing

/-! # Membership through chains of groups

A catalog tells whether an account belongs to a group by walking from the group to its members, and
from these to theirs, until it meets a direct group of the account. Names that were seen are not
walked through again, so the walk ends in a cycle as well. Part way through, no seen name is a direct
group, and everything nested in a seen name is seen or waits
(`SpnegoRealm.Directory.Catalog.Walked`). Hence the answer is yes exactly if a chain of nestings
leads from the group to a direct group of the account
(`SpnegoRealm.Directory.Catalog.isMember_iff`).
-/

namespace SpnegoRealm.Directory

private theorem Chain.after {directory : Directory} {root member name : String} {length : ℕ}
    (chain : directory.Chain member length name) (nests : directory.Nests root member) :
    directory.Chain root (length + 1) name := by
  induction chain with
  | root => exact Chain.root.deeper nests
  | deeper _ nested ih => exact ih.deeper nested

/-- The names of the nested relation: those that nest a name or are nested in one. -/
def related (directory : Directory) : Set String :=
  { name | ∃ other, directory.Nests name other ∨ directory.Nests other name }

private theorem below_subset_related (directory : Directory) (root : String) :
    directory.below root ⊆ directory.related := by
  rintro name ⟨other, length, chain⟩
  cases chain with
  | root => exact (other rfl).elim
  | deeper _ nests => exact ⟨_, Or.inr nests⟩

namespace Catalog

/-- A catalog that was put together entry by entry. -/
inductive Built : Catalog → Prop
  | empty : Built {}
  | entry {catalog : Catalog} (built : Built catalog) (entry : Entry) :
    Built (catalog.withEntry entry)
  | nested {catalog : Catalog} (built : Built catalog) (group : String) (children : List String) :
    Built (catalog.withNested group children)
  | userGroups {catalog : Catalog} (built : Built catalog) (account : String)
    (groups : List String) : Built (catalog.withUserGroups account groups)
  | failing {catalog : Catalog} (built : Built catalog) (key : String) :
    Built (catalog.failingOn key)
  | latency {catalog : Catalog} (built : Built catalog) (span : ℕ) :
    Built { catalog with latency := span }

variable {catalog : Catalog} {direct seen queue : List String} {group account name : String}

private theorem Built.lowercase_of_mem_accounts (built : catalog.Built) :
    ∀ entry ∈ catalog.accounts, ∀ group ∈ entry.2, Text.lowercase group = group := by
  induction built with
  | empty =>
      intro entry listed
      cases listed
  | entry _ _ ih => exact ih
  | nested _ _ _ ih => exact ih
  | userGroups _ account groups ih =>
      intro entry listed group recorded
      rcases List.mem_cons.mp listed with rfl | older
      · obtain ⟨spelling, _, rfl⟩ := List.mem_map.mp recorded
        exact Text.lowercase_lowercase spelling
      · exact ih entry older group recorded
  | failing _ _ ih => exact ih
  | latency _ _ ih => exact ih

/-- The direct groups of an account are recorded lowercased. -/
theorem Built.lowercase_of_mem_directGroups (built : catalog.Built)
    (listed : group ∈ catalog.directGroups account) : Text.lowercase group = group := by
  unfold directGroups at listed
  cases found : catalog.accounts.lookup (Text.lowercase account) with
  | none =>
      rw [found] at listed
      cases listed
  | some groups =>
      rw [found] at listed
      obtain ⟨before, after, split, _⟩ := List.lookup_eq_some_iff.mp found
      refine built.lowercase_of_mem_accounts (Text.lowercase account, groups) ?_ group listed
      rw [split]
      exact List.mem_append_right _ List.mem_cons_self

private theorem fails_of_failing_nil (answers : catalog.failing = []) (key : String) :
    catalog.fails key = false := by
  unfold fails
  rw [answers]
  rfl

private theorem check_of_failing_nil (answers : catalog.failing = []) (key : String) :
    catalog.check key = .ok () := by
  unfold check
  rw [fails_of_failing_nil answers, if_neg Bool.false_ne_true]

/-- Where nothing fails, an account is answered its direct groups. -/
theorem userGroups_of_failing_nil (answers : catalog.failing = []) (account : String) :
    catalog.toDirectory.userGroups account = .ok (catalog.directGroups account) := by
  unfold toDirectory
  simp only [check_of_failing_nil answers]
  rfl

/-- Where nothing fails, a question for membership is answered by the walk. -/
theorem isMember_of_failing_nil (answers : catalog.failing = []) (group account : String) :
    catalog.toDirectory.isMember group account = .ok (catalog.isMember group account) := by
  unfold toDirectory
  simp only [check_of_failing_nil answers]
  rfl

/-- Without failing keys, a lowercased name nests what is recorded under it. -/
theorem nests_iff_mem_children (answers : catalog.failing = [])
    (lowercased : Text.lowercase group = group) :
    catalog.toDirectory.Nests group name ↔
      name ∈ (catalog.children group).map Text.lowercase := by
  have answer : catalog.toDirectory.memberGroups group = .ok (catalog.children group) := by
    rw [memberGroups_of_not_fails (fails_of_failing_nil answers group), lowercased]
  rw [← catalog.toDirectory_foldsCase.nests_iff answer, lowercased]

private theorem related_subset (catalog : Catalog) : catalog.toDirectory.related ⊆
    ↑(catalog.nested.map Prod.fst ++ catalog.recorded).toFinset := by
  rintro name ⟨other, nests | nests⟩
  · obtain ⟨pair, present, rfl, _⟩ := exists_recorded_of_nests nests
    have key : pair.1 ∈ catalog.nested.map Prod.fst := List.mem_map_of_mem present
    exact Finset.mem_coe.mpr (List.mem_toFinset.mpr (List.mem_append_left _ key))
  · have member : name ∈ catalog.recorded := mem_recorded_of_nests nests
    exact Finset.mem_coe.mpr (List.mem_toFinset.mpr (List.mem_append_right _ member))

private theorem related_finite (catalog : Catalog) : catalog.toDirectory.related.Finite :=
  (Finset.finite_toSet _).subset catalog.related_subset

/-- The nested relation has no more names than the catalog records. -/
theorem ncard_related_le (catalog : Catalog) : catalog.toDirectory.related.ncard ≤
    (catalog.nested.map Prod.fst ++ catalog.recorded).toFinset.card := by
  rw [← Set.ncard_coe_finset]
  exact Set.ncard_le_ncard catalog.related_subset (Finset.finite_toSet _)

/-- Below a root there are no more names than the nested relation has. -/
theorem ncard_below_le_related (catalog : Catalog) (root : String) :
    (catalog.toDirectory.below root).ncard ≤ catalog.toDirectory.related.ncard :=
  Set.ncard_le_ncard (below_subset_related _ root) catalog.related_finite

/-! ## The walk -/

private theorem lowercase_of_mem_append_children (catalog : Catalog)
    (lowercased : ∀ name ∈ group :: queue, Text.lowercase name = name) :
    ∀ name ∈ queue ++ (catalog.children group).map Text.lowercase,
      Text.lowercase name = name := by
  intro name waits
  rcases List.mem_append.mp waits with older | child
  · exact lowercased name (List.mem_cons_of_mem _ older)
  · obtain ⟨spelling, _, rfl⟩ := List.mem_map.mp child
    exact Text.lowercase_lowercase spelling

/-- From some group that waits, a chain leads to every direct group that the walk meets. -/
theorem exists_chain_of_reaches (answers : catalog.failing = [])
    (lowercased : ∀ name ∈ queue, Text.lowercase name = name)
    (reached : catalog.reaches direct seen queue = true) :
    ∃ start ∈ queue, ∃ name ∈ direct, ∃ length, catalog.toDirectory.Chain start length name := by
  induction seen, queue using reaches.induct catalog direct with
  | case1 seen =>
      rw [reaches] at reached
      cases reached
  | case2 seen group queue met =>
      exact ⟨group, List.mem_cons_self, group, List.contains_iff_mem.mp met, 0, .root⟩
  | case3 seen group queue unmet old ih =>
      rw [reaches, if_neg unmet, if_pos old] at reached
      have rest := (List.forall_mem_cons.mp lowercased).2
      obtain ⟨start, waits, found⟩ := ih rest reached
      exact ⟨start, List.mem_cons_of_mem _ waits, found⟩
  | case4 seen group queue unmet fresh ih =>
      rw [reaches, if_neg unmet, if_neg fresh] at reached
      have own : Text.lowercase group = group := lowercased group List.mem_cons_self
      have rest := catalog.lowercase_of_mem_append_children lowercased
      obtain ⟨start, waits, name, isDirect, length, chain⟩ := ih rest reached
      rcases List.mem_append.mp waits with older | child
      · exact ⟨start, List.mem_cons_of_mem _ older, name, isDirect, length, chain⟩
      · have nests := (nests_iff_mem_children answers own).mpr child
        exact ⟨group, List.mem_cons_self, name, isDirect, length + 1, chain.after nests⟩

/-- Part way through a walk, no seen name is a direct group, and everything nested in a seen name is
seen or waits. -/
def Walked (catalog : Catalog) (direct seen queue : List String) : Prop :=
  ∀ name ∈ seen, name ∉ direct ∧
    ∀ child, catalog.toDirectory.Nests name child → child ∈ seen ∨ child ∈ queue

/-- A name that was seen can leave the queue. -/
theorem Walked.skip (walked : catalog.Walked direct seen (group :: queue)) (old : group ∈ seen) :
    catalog.Walked direct seen queue := by
  intro name present
  obtain ⟨other, nested⟩ := walked name present
  refine ⟨other, fun child nests => ?_⟩
  rcases nested child nests with known | waits
  · exact Or.inl known
  · rcases List.mem_cons.mp waits with rfl | later
    · exact Or.inl old
    · exact Or.inr later

/-- A name that is no direct group is seen as soon as its children wait. -/
theorem Walked.expand (walked : catalog.Walked direct seen (group :: queue))
    (answers : catalog.failing = []) (lowercased : Text.lowercase group = group)
    (unmet : group ∉ direct) :
    catalog.Walked direct (group :: seen)
      (queue ++ (catalog.children group).map Text.lowercase) := by
  intro name present
  rcases List.mem_cons.mp present with rfl | older
  · refine ⟨unmet, fun child nests => Or.inr (List.mem_append_right _ ?_)⟩
    exact (nests_iff_mem_children answers lowercased).mp nests
  · obtain ⟨other, nested⟩ := walked name older
    refine ⟨other, fun child nests => ?_⟩
    rcases nested child nests with known | waits
    · exact Or.inl (List.mem_cons_of_mem _ known)
    · rcases List.mem_cons.mp waits with rfl | later
      · exact Or.inl List.mem_cons_self
      · exact Or.inr (List.mem_append_left _ later)

/-- A walk that meets no direct group has seen a closed set of names without any. -/
theorem exists_closed_of_not_reaches (answers : catalog.failing = [])
    (lowercased : ∀ name ∈ queue, Text.lowercase name = name)
    (walked : catalog.Walked direct seen queue)
    (missed : catalog.reaches direct seen queue = false) :
    ∃ closed, seen ⊆ closed ∧ queue ⊆ closed ∧ catalog.Walked direct closed [] := by
  induction seen, queue using reaches.induct catalog direct with
  | case1 seen => exact ⟨seen, List.Subset.refl _, List.nil_subset _, walked⟩
  | case2 seen group queue met =>
      rw [reaches, if_pos met] at missed
      cases missed
  | case3 seen group queue unmet old ih =>
      rw [reaches, if_neg unmet, if_pos old] at missed
      have known : group ∈ seen := List.contains_iff_mem.mp old
      have rest := (List.forall_mem_cons.mp lowercased).2
      obtain ⟨closed, more, waiting, final⟩ := ih rest (walked.skip known) missed
      exact ⟨closed, more, List.cons_subset.mpr ⟨more known, waiting⟩, final⟩
  | case4 seen group queue unmet fresh ih =>
      rw [reaches, if_neg unmet, if_neg fresh] at missed
      have own : Text.lowercase group = group := lowercased group List.mem_cons_self
      have other : group ∉ direct := fun met => unmet (List.contains_iff_mem.mpr met)
      have rest := catalog.lowercase_of_mem_append_children lowercased
      obtain ⟨closed, more, waiting, final⟩ :=
        ih rest (walked.expand answers own other) missed
      obtain ⟨here, before⟩ := List.cons_subset.mp more
      exact ⟨closed, before, List.cons_subset.mpr ⟨here, (List.append_subset.mp waiting).1⟩, final⟩

/-- **An account belongs to a group if some chain of nestings leads from the group to a direct group
of the account.** -/
theorem isMember_iff (answers : catalog.failing = []) (group account : String) :
    catalog.isMember group account = true ↔ ∃ name ∈ catalog.directGroups account,
      ∃ length, catalog.toDirectory.Chain (Text.lowercase group) length name := by
  have lowercased : ∀ name ∈ [Text.lowercase group], Text.lowercase name = name := by
    intro name listed
    rw [List.mem_singleton.mp listed]
    exact Text.lowercase_lowercase group
  unfold isMember
  constructor
  · intro reached
    obtain ⟨start, waits, name, isDirect, length, chain⟩ :=
      exists_chain_of_reaches answers lowercased reached
    obtain rfl := List.mem_singleton.mp waits
    exact ⟨name, isDirect, length, chain⟩
  · rintro ⟨name, isDirect, length, chain⟩
    by_contra missed
    have nothingSeen : catalog.Walked (catalog.directGroups account) [] [Text.lowercase group] := by
      intro name present
      cases present
    obtain ⟨closed, -, waiting, final⟩ := exists_closed_of_not_reaches answers lowercased
      nothingSeen (Bool.eq_false_iff.mpr missed)
    have member : name ∈ closed := by
      refine chain.mem_of_closed { name | name ∈ closed } (waiting List.mem_cons_self) ?_
      intro parent present child nests
      exact ((final parent present).2 child nests).resolve_right List.not_mem_nil
    exact (final name member).1 isDirect

end Catalog

end SpnegoRealm.Directory
