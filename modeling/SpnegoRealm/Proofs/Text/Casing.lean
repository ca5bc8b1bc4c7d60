import SpnegoRealm.Text.Casing

/-! # Lowercasing twice

A character that is neither of the two exceptions of lowercasing and is its own simple image is
settled (`SpnegoRealm.Text.Casing.Settled`). No code point of the table of mappings is the image of
one, so the images of all characters are settled, and a text of settled characters is its own
lowercase form: lowercasing twice is lowercasing once (`SpnegoRealm.Text.lowercase_lowercase`).

A word of ASCII characters begins the lowercase form of a text as it begins the text itself up to
the case of ASCII letters (`SpnegoRealm.Text.Casing.prefix_lowerAfter_iff`).
-/

namespace SpnegoRealm.Text

/-! ## The case of ASCII letters -/

/-- A character is its own ASCII lowercase, or a capital letter whose small letter stands 32 places
behind it. -/
theorem toLower_cases (c : Char) :
    c.toLower = c ∨ 0x61 ≤ c.toLower.toNat ∧ c.toLower.toNat ≤ 0x7A ∧
      c.toNat + 0x20 = c.toLower.toNat := by
  by_cases upper : c.val ≥ 'A'.val ∧ c.val ≤ 'Z'.val
  · right
    have low : 65 ≤ c.val.toNat := upper.1
    have high : c.val.toNat ≤ 90 := upper.2
    have image : c.toLower.toNat = c.val.toNat + 32 := by
      unfold Char.toLower
      rw [dif_pos upper]
      change (c.val.toNat + 32) % _ = _
      omega
    change _ ∧ _ ∧ c.val.toNat + 32 = _
    omega
  · left
    unfold Char.toLower
    rw [dif_neg upper]

/-- Only letters are the lowercase image of another character. -/
theorem eq_of_toLower_eq {c image : Char} (lowers : c.toLower = image)
    (other : image.toNat < 0x61 ∨ 0x7A < image.toNat) : c = image := by
  rcases toLower_cases c with same | ⟨low, high, _⟩
  · exact same.symm.trans lowers
  · rw [lowers] at low high
    omega

/-- ASCII lowercase leads neither into ASCII nor out of it. -/
theorem toLower_ascii_iff {c : Char} : c.toLower.toNat < 0x80 ↔ c.toNat < 0x80 := by
  rcases toLower_cases c with same | ⟨low, high, shifted⟩
  · rw [same]
  · omega

/-- Characters beyond ASCII are their own ASCII lowercase. -/
theorem toLower_of_not_ascii {c : Char} (beyond : 0x80 ≤ c.toNat) : c.toLower = c := by
  rcases toLower_cases c with same | ⟨low, high, shifted⟩
  · exact same
  · omega

/-- Texts are equal up to the case of ASCII letters if and only if their characters have the same
ASCII lowercase. -/
theorem eqIgnoringAsciiCase_iff {left right : String} :
    eqIgnoringAsciiCase left right = true ↔
      left.toList.map Char.toLower = right.toList.map Char.toLower :=
  beq_iff_eq

namespace Casing

/-! ## The images of the table -/

namespace Run

/-- The least image of a run. -/
def lowest (run : Run) : Nat := Int.toNat (run.first + run.offset)

/-- The greatest image of a run. -/
def highest (run : Run) : Nat := Int.toNat (run.last + run.offset)

/-- Whether the images of a run end before another run, begin after it, or fall between its code
points. -/
def misses (run other : Run) : Bool :=
  run.highest.blt other.first || other.last.blt run.lowest ||
    (other.step == 2 && (run.step == 2 || run.lowest == run.highest) &&
      (run.lowest + other.first) % 2 == 1)

/-- All images of a run are code points of characters other than the dotted capital I. -/
def Proper (run : Run) : Prop :=
  0 ≤ run.first + run.offset ∧ (run.highest < 0xD800 ∨ 0xE000 ≤ run.lowest) ∧
    run.highest < 0x110000 ∧ (run.highest < 0x130 ∨ 0x130 < run.lowest)

instance (run : Run) : Decidable run.Proper := inferInstanceAs (Decidable (_ ∧ _))

variable {run other : Run} {code image : Nat}

private theorem of_image?_eq_some (maps : run.image? code = some image) :
    run.first ≤ code ∧ code ≤ run.last ∧ (code - run.first) % run.step = 0 ∧
      image = Int.toNat (code + run.offset) := by
  unfold image? at maps
  split at maps
  next inside => exact ⟨inside.1, inside.2.1, inside.2.2, (Option.some.inj maps).symm⟩
  next => cases maps

private theorem image_bounds (maps : run.image? code = some image) :
    run.lowest ≤ image ∧ image ≤ run.highest := by
  obtain ⟨first, last, _, rfl⟩ := of_image?_eq_some maps
  unfold lowest highest
  omega

private theorem image?_eq_none_of_misses (proper : run.Proper) (misses : run.misses other = true)
    (maps : run.image? code = some image) : other.image? image = none := by
  obtain ⟨low, high⟩ := image_bounds maps
  simp only [Run.misses, Bool.or_eq_true, Bool.and_eq_true, Nat.blt_eq, beq_iff_eq] at misses
  obtain ⟨first, last, multiple, rfl⟩ := of_image?_eq_some maps
  refine if_neg fun inside => ?_
  obtain ⟨otherFirst, otherLast, otherMultiple⟩ := inside
  rcases misses with (before | after) | ⟨⟨otherStep, step | single⟩, odd⟩
  · omega
  · omega
  · rw [step] at multiple
    rw [otherStep] at otherMultiple
    have nonnegative := proper.1
    unfold lowest at odd
    omega
  · rw [otherStep] at otherMultiple
    omega

end Run

private theorem lowercaseRuns_proper : ∀ run ∈ lowercaseRuns, run.Proper := by decide +kernel

/-- No run of the table maps an image of a run of the table. -/
theorem lowercaseRuns_misses :
    (lowercaseRuns.all fun run => lowercaseRuns.all run.misses) = true := by
  decide +kernel

/-! ## Settled characters -/

/-- A character that lowercasing keeps wherever it stands. -/
def Settled (c : Char) : Prop := c ≠ 'Σ' ∧ c ≠ 'İ' ∧ simpleLower c = c

instance (c : Char) : Decidable (Settled c) := inferInstanceAs (Decidable (_ ∧ _))

private theorem toNat_ofNat {code : Nat} (valid : code.isValidChar) :
    (Char.ofNat code).toNat = code := by
  unfold Char.ofNat
  rw [dif_pos valid]
  rfl

private theorem settled_toLower {c : Char} (ascii : c.toNat < 0x80) : Settled c.toLower := by
  have table : ∀ code < 0x80, Settled (Char.ofNat code).toLower := by decide +kernel
  have settled := table c.toNat ascii
  rwa [Char.ofNat_toNat] at settled

/-- An ASCII character is settled unless the table maps it. -/
theorem settled_of_ascii {code : Nat} (ascii : code < 0x80)
    (unmapped : lowercaseRuns.findSome? (·.image? code) = none) : Settled (Char.ofNat code) := by
  have table : ∀ code < 0x80, Settled (Char.ofNat code) ∨
      (lowercaseRuns.findSome? (·.image? code)).isSome = true := by decide +kernel
  rcases table code ascii with settled | mapped
  · exact settled
  · rw [unmapped] at mapped
    cases mapped

/-- A code point that the table does not map is that of a settled character, with one exception. -/
theorem settled_of_unmapped {code : Nat} (valid : code.isValidChar) (other : code ≠ 0x130)
    (unmapped : lowercaseRuns.findSome? (·.image? code) = none) : Settled (Char.ofNat code) := by
  by_cases ascii : code < 0x80
  · exact settled_of_ascii ascii unmapped
  · have same : (Char.ofNat code).toNat = code := toNat_ofNat valid
    refine ⟨?_, ?_, ?_⟩
    · intro sigma
      have here : code = 0x3A3 := by rw [← same, sigma]; rfl
      have mapped : (lowercaseRuns.findSome? (·.image? 0x3A3)).isSome = true := by decide +kernel
      rw [← here, unmapped] at mapped
      cases mapped
    · intro dotted
      refine other ?_
      rw [← same, dotted]
      rfl
    · unfold simpleLower
      rw [same, if_neg ascii, unmapped]

/-- The table maps code points to settled characters. -/
theorem settled_of_mapped {code image : Nat}
    (mapped : lowercaseRuns.findSome? (·.image? code) = some image) :
    Settled (Char.ofNat image) := by
  obtain ⟨run, listed, maps⟩ := List.exists_of_findSome?_eq_some mapped
  have proper := lowercaseRuns_proper run listed
  have ⟨_, scalar, small, apart⟩ := proper
  obtain ⟨low, high⟩ := Run.image_bounds maps
  refine settled_of_unmapped ?valid ?other ?unmapped
  case valid =>
    unfold Nat.isValidChar
    omega
  case other => omega
  case unmapped =>
    rw [List.findSome?_eq_none_iff]
    intro other present
    have apart := List.all_eq_true.mp lowercaseRuns_misses run listed
    exact Run.image?_eq_none_of_misses proper (List.all_eq_true.mp apart other present) maps

private theorem settled_sigma : Settled 'ς' ∧ Settled 'σ' := by decide +kernel

private theorem settled_i_dot : Settled 'i' ∧ Settled '\u0307' := by decide +kernel

private theorem settled_of_mem_lowerImage {before after : List Char} {c image : Char}
    (member : image ∈ lowerImage before c after) : Settled image := by
  unfold lowerImage at member
  split at member
  next =>
    split at member
    next =>
      rw [List.mem_singleton.mp member]
      exact settled_sigma.1
    next =>
      rw [List.mem_singleton.mp member]
      exact settled_sigma.2
  next noSigma =>
    split at member
    next =>
      rcases List.mem_cons.mp member with rfl | dot
      · exact settled_i_dot.1
      · rw [List.mem_singleton.mp dot]
        exact settled_i_dot.2
    next noDot =>
      obtain rfl := List.mem_singleton.mp member
      unfold simpleLower
      split
      next ascii => exact settled_toLower ascii
      next =>
        split
        next image mapped => exact settled_of_mapped mapped
        next unmapped =>
          have valid : c.toNat.isValidChar := c.valid
          have other : c.toNat ≠ 0x130 := fun dotted => noDot (Char.toNat_inj.mp dotted)
          have settled := settled_of_unmapped valid other unmapped
          rwa [Char.ofNat_toNat] at settled

/-! ## Settled texts -/

/-- Lowercased characters are settled. -/
theorem settled_of_mem_lowerAfter {before characters : List Char} {image : Char}
    (member : image ∈ lowerAfter before characters) : Settled image := by
  induction characters generalizing before with
  | nil => cases member
  | cons c after ih =>
      unfold lowerAfter at member
      rcases List.mem_append.mp member with first | later
      · exact settled_of_mem_lowerImage first
      · exact ih later

/-- Settled characters stay as they are. -/
theorem lowerAfter_of_settled {characters : List Char} (settled : ∀ c ∈ characters, Settled c)
    (before : List Char) : lowerAfter before characters = characters := by
  induction characters generalizing before with
  | nil => rfl
  | cons c after ih =>
      obtain ⟨noSigma, noDot, own⟩ := settled c List.mem_cons_self
      have image : lowerImage before c after = [c] := by
        unfold lowerImage
        rw [if_neg noSigma, if_neg noDot, own]
      unfold lowerAfter
      rw [image, ih fun other listed => settled other (List.mem_cons_of_mem _ listed)]
      rfl

/-! ## Words of ASCII characters -/

/-- Of all characters beyond ASCII, only the Kelvin sign has its simple image in ASCII. -/
theorem simpleLower_eq_k {c : Char} (beyond : 0x80 ≤ c.toNat)
    (ascii : (simpleLower c).toNat < 0x80) : simpleLower c = 'k' := by
  have table : ∀ run ∈ lowercaseRuns, run.last < 0x80 ∨ 0x80 ≤ run.lowest ∨
      run.lowest = 0x6B ∧ run.highest = 0x6B := by decide +kernel
  unfold simpleLower at ascii ⊢
  rw [if_neg (by omega)] at ascii ⊢
  split at ascii
  next image mapped =>
    obtain ⟨run, listed, maps⟩ := List.exists_of_findSome?_eq_some mapped
    obtain ⟨_, scalar, small, _⟩ := lowercaseRuns_proper run listed
    obtain ⟨low, high⟩ := Run.image_bounds maps
    have inside := Run.of_image?_eq_some maps
    have valid : image.isValidChar := by
      unfold Nat.isValidChar
      omega
    rw [toNat_ofNat valid] at ascii
    rcases table run listed with before | after | ⟨lowest, highest⟩
    · omega
    · omega
    · obtain rfl : image = 0x6B := by omega
      rfl
  next unmapped => omega

/-- The Kelvin sign apart, full lowercase leads into ASCII where ASCII lowercase does. -/
theorem eq_simpleLower_iff {c image : Char} (ascii : image.toNat < 0x80) (noKelvin : image ≠ 'k') :
    image = simpleLower c ↔ image = c.toLower := by
  by_cases low : c.toNat < 0x80
  · unfold simpleLower
    rw [if_pos low]
  · have beyond : 0x80 ≤ c.toNat := Nat.le_of_not_lt low
    rw [toLower_of_not_ascii beyond]
    constructor
    · rintro rfl
      exact (noKelvin (simpleLower_eq_k beyond ascii)).elim
    · rintro rfl
      exact (low ascii).elim

private theorem exists_lowerImage_sigma (before after : List Char) :
    ∃ image : Char, 0x80 ≤ image.toNat ∧ lowerImage before 'Σ' after = [image] := by
  unfold lowerImage
  rw [if_pos rfl]
  split
  · exact ⟨'ς', by decide, rfl⟩
  · exact ⟨'σ', by decide, rfl⟩

/-- **Words keep to ASCII.** The lowercase form of a text begins with a word if and only if the text
does so up to the case of ASCII letters. The word may not have a `k`, which is also the image of the
Kelvin sign, and may not end with an `i`, with which the image of the dotted capital I begins. -/
theorem prefix_lowerAfter_iff {word : List Char} (plain : ∀ c ∈ word, c.toNat < 0x80 ∧ c ≠ 'k')
    (ends : word.getLast? ≠ some 'i') (before characters : List Char) :
    word <+: lowerAfter before characters ↔ word <+: characters.map Char.toLower := by
  induction characters generalizing word before with
  | nil => rfl
  | cons c after ih =>
      cases word with
      | nil => simp
      | cons first rest =>
          obtain ⟨ascii, noKelvin⟩ := plain first List.mem_cons_self
          have foreign : ∀ {other : Char}, 0x80 ≤ other.toNat → first ≠ other := by
            rintro other beyond rfl
            omega
          unfold lowerAfter
          rw [List.map_cons, List.cons_prefix_cons]
          by_cases sigma : c = 'Σ'
          · subst sigma
            obtain ⟨image, beyond, same⟩ := exists_lowerImage_sigma before after
            have capital : first ≠ Char.toLower 'Σ' := foreign (by decide)
            rw [same, List.cons_append, List.cons_prefix_cons]
            exact iff_of_false (fun both => foreign beyond both.1) fun both => capital both.1
          · by_cases dotted : c = 'İ'
            · subst dotted
              have capital : first ≠ Char.toLower 'İ' := foreign (by decide)
              have same : lowerImage before 'İ' after = ['i', '\u0307'] := rfl
              simp only [same, List.cons_append, List.nil_append, List.cons_prefix_cons,
                capital, false_and, iff_false, not_and]
              rintro rfl
              cases rest with
              | nil => exact (ends rfl).elim
              | cons second others =>
                  rw [List.cons_prefix_cons]
                  rintro ⟨rfl, _⟩
                  have impossible := (plain '\u0307' (by simp)).1
                  revert impossible
                  decide
            · have single : lowerImage before c after = [simpleLower c] := by
                unfold lowerImage
                rw [if_neg sigma, if_neg dotted]
              rw [single, List.cons_append, List.nil_append, List.cons_prefix_cons,
                eq_simpleLower_iff ascii noKelvin]
              refine and_congr_right fun _ => ih ?_ ?_ _
              · intro other member
                exact plain other (List.mem_cons_of_mem _ member)
              · cases rest with
                | nil => simp
                | cons second others => rwa [List.getLast?_cons_cons] at ends

end Casing

/-- **Lowercasing twice is lowercasing once.** -/
theorem lowercase_lowercase (text : String) : lowercase (lowercase text) = lowercase text := by
  unfold lowercase
  rw [String.toList_ofList]
  exact congrArg String.ofList
    (Casing.lowerAfter_of_settled (fun _ member => Casing.settled_of_mem_lowerAfter member) [])

end SpnegoRealm.Text
