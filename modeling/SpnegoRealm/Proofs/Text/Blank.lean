import Mathlib.Data.List.DropRight
import SpnegoRealm.Proofs.Text.Casing
import SpnegoRealm.Text.Blank

/-! # What trimming leaves

Characters are tight when neither of their ends is in the class that is trimmed. What trimming
leaves is the tight part of a text between characters of the class
(`SpnegoRealm.Text.trimChars_eq_iff`).
-/

namespace SpnegoRealm.Text

variable {inClass : Char → Bool} {characters middle : List Char}

/-- What is left after the characters of a class that come first. -/
theorem dropWhile_eq_iff :
    characters.dropWhile inClass = middle ↔
      (∀ c ∈ middle.head?, inClass c = false) ∧
        ∃ before, (∀ c ∈ before, inClass c = true) ∧ characters = before ++ middle := by
  constructor
  · rintro rfl
    refine ⟨?_, characters.takeWhile inClass, fun c => List.mem_takeWhile_imp,
      List.takeWhile_append_dropWhile.symm⟩
    intro c first
    have outside := List.head?_dropWhile_not inClass characters
    rw [Option.mem_def.mp first] at outside
    exact outside
  · rintro ⟨first, before, inside, rfl⟩
    rw [List.dropWhile_append_of_pos inside]
    cases middle with
    | nil => rfl
    | cons c rest => exact List.dropWhile_cons_of_neg (Bool.eq_false_iff.mp (first c rfl))

/-- Neither end of some characters is in a class. -/
structure Tight (inClass : Char → Bool) (characters : List Char) : Prop where
  first : ∀ c ∈ characters.head?, inClass c = false
  last : ∀ c ∈ characters.getLast?, inClass c = false

/-- **What trimming leaves.** It is tight, and around it stand characters of the class only. -/
theorem trimChars_eq_iff :
    trimChars inClass characters = middle ↔
      Tight inClass middle ∧ ∃ before after, (∀ c ∈ before, inClass c = true) ∧
        (∀ c ∈ after, inClass c = true) ∧ characters = before ++ (middle ++ after) := by
  unfold trimChars
  rw [List.reverse_eq_iff, dropWhile_eq_iff, List.head?_reverse]
  constructor
  · rintro ⟨last, after, trailing, same⟩
    obtain ⟨first, before, leading, split⟩ := dropWhile_eq_iff.mp (rfl :
      characters.dropWhile inClass = characters.dropWhile inClass)
    rw [List.reverse_eq_iff, List.reverse_append, List.reverse_reverse] at same
    refine ⟨⟨?_, last⟩, before, after.reverse, leading, ?_, ?_⟩
    · intro c head
      apply first
      rw [same]
      cases middle with
      | nil => cases head
      | cons other rest => exact head
    · intro c member
      exact trailing c (List.mem_reverse.mp member)
    · rw [← same]
      exact split
  · rintro ⟨tight, before, after, leading, trailing, rfl⟩
    refine ⟨tight.last, ?_⟩
    rw [List.dropWhile_append_of_pos leading]
    cases middle with
    | nil =>
        have empty : after.dropWhile inClass = [] := List.dropWhile_eq_nil_iff.mpr trailing
        refine ⟨[], by simp, ?_⟩
        rw [List.nil_append, empty]
        rfl
    | cons c rest =>
        have kept : ¬ inClass c = true := Bool.eq_false_iff.mp (tight.first c rfl)
        refine ⟨after.reverse, fun c member => trailing c (List.mem_reverse.mp member), ?_⟩
        rw [List.cons_append, List.dropWhile_cons_of_neg kept, ← List.cons_append,
          List.reverse_append]

/-- What trimming leaves is tight. -/
theorem tight_trimChars (inClass : Char → Bool) (characters : List Char) :
    Tight inClass (trimChars inClass characters) :=
  (trimChars_eq_iff.mp rfl).1

/-- Trimming leaves nothing if and only if all characters are in the class. -/
theorem trimChars_eq_nil_iff :
    trimChars inClass characters = [] ↔ ∀ c ∈ characters, inClass c = true := by
  rw [trimChars_eq_iff]
  constructor
  · rintro ⟨_, before, after, leading, trailing, rfl⟩ c member
    rcases List.mem_append.mp member with early | late
    · exact leading c early
    · exact trailing c late
  · intro inside
    exact ⟨⟨by simp, by simp⟩, characters, [], inside, by simp, by simp⟩

/-- Trimming leaves tight characters as they are. -/
theorem trimChars_of_tight (tight : Tight inClass characters) :
    trimChars inClass characters = characters :=
  trimChars_eq_iff.mpr ⟨tight, [], [], by simp, by simp, by simp⟩

/-- What trimming leaves was there before, in this order. -/
theorem trimChars_sublist (inClass : Char → Bool) (characters : List Char) :
    (trimChars inClass characters).Sublist characters := by
  obtain ⟨_, before, after, -, -, split⟩ := trimChars_eq_iff.mp
    (rfl : trimChars inClass characters = trimChars inClass characters)
  conv_rhs => rw [split]
  exact (List.sublist_append_left _ _).trans (List.sublist_append_right _ _)

/-- Dropping from the start stops where a character is not of the class. -/
theorem dropWhile_append_of_first {kept : List Char} (filled : kept ≠ [])
    (first : ∀ c ∈ kept.head?, inClass c = false) (leading rest : List Char) :
    (leading ++ (kept ++ rest)).dropWhile inClass =
      leading.dropWhile inClass ++ (kept ++ rest) := by
  rw [List.dropWhile_append]
  obtain ⟨c, others, rfl⟩ := List.exists_cons_of_ne_nil filled
  have outside : ¬ inClass c = true := Bool.eq_false_iff.mp (first c rfl)
  split
  next empty =>
    rw [List.isEmpty_iff.mp empty, List.cons_append, List.dropWhile_cons_of_neg outside]
    rfl
  next => rfl

/-- Around tight characters, of which there are any, each side is trimmed on its own. -/
theorem trimChars_append (tight : Tight inClass middle) (filled : middle ≠ [])
    (before after : List Char) :
    trimChars inClass (before ++ (middle ++ after)) =
      before.dropWhile inClass ++ (middle ++ (after.reverse.dropWhile inClass).reverse) := by
  have last : ∀ c ∈ middle.reverse.head?, inClass c = false := by
    rw [List.head?_reverse]
    exact tight.last
  have filled' : middle.reverse ≠ [] := by simpa using filled
  unfold trimChars
  rw [dropWhile_append_of_first filled tight.first, List.reverse_append, List.reverse_append,
    List.append_assoc, dropWhile_append_of_first filled' last]
  simp only [List.reverse_append, List.reverse_reverse, List.append_assoc]

/-- No visible ASCII character is blank. -/
theorem isBlank_of_visible {c : Char} (above : 0x21 ≤ c.toNat) (below : c.toNat < 0x7F) :
    isBlank c = false := by
  simp only [isBlank, Bool.or_eq_false_iff, Bool.and_eq_false_iff, decide_eq_false_iff_not,
    beq_eq_false_iff_ne]
  omega

/-- A character is blank if and only if its ASCII lowercase is. -/
theorem isBlank_toLower (c : Char) : isBlank c.toLower = isBlank c := by
  rcases toLower_cases c with same | ⟨low, high, shifted⟩
  · rw [same]
  · rw [isBlank_of_visible (by omega) (by omega), isBlank_of_visible (by omega) (by omega)]

/-- A change of characters that keeps them in their class commutes with trimming. -/
theorem trimChars_map {change : Char → Char} (same : ∀ c, inClass (change c) = inClass c)
    (characters : List Char) :
    trimChars inClass (characters.map change) = (trimChars inClass characters).map change := by
  have unchanged : inClass ∘ change = inClass := funext same
  unfold trimChars
  rw [List.dropWhile_map, unchanged, ← List.map_reverse, List.dropWhile_map, unchanged,
    ← List.map_reverse]

/-- A text is blank if and only if all its characters are. -/
theorem isBlankText_iff {text : String} :
    isBlankText text = true ↔ ∀ c ∈ text.toList, isBlank c = true := by
  unfold isBlankText
  rw [List.all_eq_true]

/-- A trimmed text has the trimmed characters. -/
theorem toList_trimBy (inClass : Char → Bool) (text : String) :
    (trimBy inClass text).toList = trimChars inClass text.toList := by
  unfold trimBy
  rw [String.toList_ofList]

/-- A text without the blanks around it has the trimmed characters. -/
theorem toList_trim (text : String) : (trim text).toList = trimChars isBlank text.toList :=
  toList_trimBy isBlank text

end SpnegoRealm.Text
