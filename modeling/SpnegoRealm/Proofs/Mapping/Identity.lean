import SpnegoRealm.Mapping.Definitions
import SpnegoRealm.Proofs.Text.Blank

/-! # Identities and what is wrapped around them

At each end of a listed identity may stand blanks, quotes inside them, and blanks inside these
(`SpnegoRealm.Mapping.Wrapping`). Cleaning removes one such layer at each end and nothing else, so
an identity with a single layer around it is found under its bare name
(`SpnegoRealm.Mapping.cleanIdentity_wrap`). What is left has no blanks at its ends, but it has
quotes there if blanks stood between two layers of quotes
(`SpnegoRealm.Mapping.quotes_inside_quotes_stay`). **One layer is lost** is
`SpnegoRealm.Mapping.identities_lose_one_layer`.
-/

namespace SpnegoRealm.Mapping

open Text (isBlank Tight trimChars)

variable {identity : String} {name : List Char}

/-! ## Layers -/

/-- What stands at one end of an identity, told from the outside: blanks, quotes inside them, and
blanks inside these. -/
structure Wrapping where
  blanks : List Char
  quotes : List Char
  inner : List Char
  blank_of_mem_blanks : ∀ c ∈ blanks, isBlank c = true
  quote_of_mem_quotes : ∀ c ∈ quotes, isQuote c = true
  blank_of_mem_inner : ∀ c ∈ inner, isBlank c = true

namespace Wrapping

/-- The characters of a wrapping, from the outside. -/
def characters (wrapping : Wrapping) : List Char :=
  wrapping.blanks ++ (wrapping.quotes ++ wrapping.inner)

/-- Some characters between two wrappings. -/
def around (left right : Wrapping) (name : List Char) : List Char :=
  left.characters ++ (name ++ right.characters.reverse)

end Wrapping

private theorem isBlank_of_isQuote {c : Char} (quote : isQuote c = true) : isBlank c = false := by
  have cases : c = '"' ∨ c = '\'' := by simpa [isQuote] using quote
  rcases cases with rfl | rfl
  · decide
  · decide

/-- Dropping blanks, quotes and blanks from the outside leaves nothing of a wrapping. -/
theorem Wrapping.dropWhile_characters (wrapping : Wrapping) :
    ((wrapping.characters.dropWhile isBlank).dropWhile isQuote).dropWhile isBlank = [] := by
  unfold characters
  rw [List.dropWhile_append_of_pos wrapping.blank_of_mem_blanks]
  have inner : wrapping.inner.dropWhile isBlank = [] :=
    List.dropWhile_eq_nil_iff.mpr wrapping.blank_of_mem_inner
  cases quoted : wrapping.quotes with
  | nil =>
      rw [List.nil_append, inner]
      rfl
  | cons quote rest =>
      have quotes : ∀ c ∈ quote :: rest, isQuote c = true :=
        quoted ▸ wrapping.quote_of_mem_quotes
      have visible : ¬ isBlank quote = true :=
        Bool.eq_false_iff.mp (isBlank_of_isQuote (quotes quote List.mem_cons_self))
      rw [List.cons_append, List.dropWhile_cons_of_neg visible, ← List.cons_append,
        List.dropWhile_append_of_pos quotes, List.dropWhile_eq_nil_iff]
      intro c member
      exact wrapping.blank_of_mem_inner c ((List.dropWhile_suffix isQuote).subset member)

/-! ## Cleaning -/

private theorem toList_cleanIdentity (identity : String) :
    (cleanIdentity identity).toList =
      trimChars isBlank (trimChars isQuote (trimChars isBlank identity.toList)) := by
  unfold cleanIdentity
  rw [Text.toList_trim, Text.toList_trimBy, Text.toList_trim]

private theorem tight_cleanIdentity (identity : String) :
    Tight isBlank (cleanIdentity identity).toList := by
  rw [toList_cleanIdentity]
  exact Text.tight_trimChars isBlank _

/-- A layer around a name that has neither blanks nor quotes at its ends is removed. -/
theorem cleanIdentity_wrap (filled : name ≠ []) (blanks : Tight isBlank name)
    (quotes : Tight isQuote name) (left right : Wrapping) :
    cleanIdentity (String.ofList (left.around right name)) = String.ofList name := by
  rw [← String.toList_inj, toList_cleanIdentity, String.toList_ofList, String.toList_ofList,
    Wrapping.around]
  simp only [Text.trimChars_append blanks filled, Text.trimChars_append quotes filled,
    List.reverse_reverse, Wrapping.dropWhile_characters, List.reverse_nil, List.append_nil,
    List.nil_append]

/-- A quote comes first only behind quotes and blanks: the quotes begin with no blank, and the
blanks with no quote. -/
theorem of_quote_first {quotes inner others rest : List Char} {c : Char}
    (blank : ∀ c ∈ inner, isBlank c = true)
    (visible : ∀ c ∈ (quotes ++ (inner ++ others)).head?, isBlank c = false)
    (bare : ∀ c ∈ (inner ++ rest).head?, isQuote c = false)
    (first : c ∈ rest.head?) (quote : isQuote c = true) : quotes ≠ [] ∧ inner ≠ [] := by
  have behind : inner ≠ [] := by
    rintro rfl
    rw [bare c first] at quote
    cases quote
  refine ⟨?_, behind⟩
  rintro rfl
  obtain ⟨other, others, rfl⟩ := List.exists_cons_of_ne_nil behind
  have seen : isBlank other = false := visible other rfl
  rw [blank other List.mem_cons_self] at seen
  cases seen

/-- What cleaning cuts off is a layer at each end. A quote that is left at an end stands behind
quotes and blanks that were cut off. -/
theorem exists_around_eq (identity : String) : ∃ left right : Wrapping,
    identity.toList = left.around right (cleanIdentity identity).toList ∧
    (∀ c ∈ (cleanIdentity identity).toList.head?, isQuote c = true →
      left.quotes ≠ [] ∧ left.inner ≠ []) ∧
    ∀ c ∈ (cleanIdentity identity).toList.getLast?, isQuote c = true →
      right.quotes ≠ [] ∧ right.inner ≠ [] := by
  rw [toList_cleanIdentity]
  generalize trimmed : trimChars isBlank identity.toList = visible
  generalize unquoted : trimChars isQuote visible = bare
  generalize cleaned : trimChars isBlank bare = name
  obtain ⟨outside, before, after, leading, trailing, split⟩ := Text.trimChars_eq_iff.mp trimmed
  obtain ⟨between, opening, closing, opens, closes, quoted⟩ := Text.trimChars_eq_iff.mp unquoted
  obtain ⟨-, inner, innerAfter, blank, blankAfter, kept⟩ := Text.trimChars_eq_iff.mp cleaned
  have reversed {characters : List Char} {inClass : Char → Bool}
      (all : ∀ c ∈ characters, inClass c = true) : ∀ c ∈ characters.reverse, inClass c = true :=
    fun c member => all c (List.mem_reverse.mp member)
  refine ⟨⟨before, opening, inner, leading, opens, blank⟩,
    ⟨after.reverse, closing.reverse, innerAfter.reverse, reversed trailing, reversed closes,
      reversed blankAfter⟩, ?layers, ?first, ?last⟩
  case layers =>
    rw [split, quoted, kept]
    simp only [Wrapping.around, Wrapping.characters, List.reverse_append, List.reverse_reverse,
      List.append_assoc]
  case first =>
    intro c first quote
    have head : c ∈ (name ++ innerAfter).head? := List.mem_head?_append_of_mem_head? first
    have shape : visible = opening ++ (inner ++ (name ++ innerAfter ++ closing)) := by
      rw [quoted, kept]
      simp only [List.append_assoc]
    exact of_quote_first blank (shape ▸ outside.first) (kept ▸ between.first) head quote
  case last =>
    intro c last quote
    have head : c ∈ (name.reverse ++ inner.reverse).head? := by
      refine List.mem_head?_append_of_mem_head? ?_
      rwa [List.head?_reverse]
    have shape : visible.reverse =
        closing.reverse ++ (innerAfter.reverse ++ (name.reverse ++ inner.reverse ++
          opening.reverse)) := by
      rw [quoted, kept]
      simp only [List.reverse_append, List.append_assoc]
    have shape' : bare.reverse = innerAfter.reverse ++ (name.reverse ++ inner.reverse) := by
      rw [kept]
      simp only [List.reverse_append, List.append_assoc]
    have ends : ∀ c ∈ visible.reverse.head?, isBlank c = false := by
      rw [List.head?_reverse]
      exact outside.last
    have ends' : ∀ c ∈ bare.reverse.head?, isQuote c = false := by
      rw [List.head?_reverse]
      exact between.last
    exact of_quote_first (reversed blankAfter) (shape ▸ ends) (shape' ▸ ends') head quote

/-- Cleaning again changes nothing if and only if no quotes are left at the ends. -/
theorem cleanIdentity_cleanIdentity_iff (identity : String) :
    cleanIdentity (cleanIdentity identity) = cleanIdentity identity ↔
      Tight isQuote (cleanIdentity identity).toList := by
  have blanks := Text.trimChars_of_tight (tight_cleanIdentity identity)
  generalize cleanIdentity identity = name at blanks
  rw [← String.toList_inj, toList_cleanIdentity, blanks]
  constructor
  · intro same
    have less : trimChars isQuote name.toList = name.toList := by
      have inside := Text.trimChars_sublist isBlank (trimChars isQuote name.toList)
      rw [same] at inside
      exact (Text.trimChars_sublist isQuote name.toList).antisymm inside
    exact less ▸ Text.tight_trimChars isQuote name.toList
  · intro quotes
    rw [Text.trimChars_of_tight quotes, blanks]

/-- **One layer is lost.** Cleaning an identity cuts off, at each end, blanks, quotes inside them
and blanks inside these, and leaves what stands in between. That has no blanks at its ends. It has
a quote at an end only if quotes and blanks behind them were cut off there, and cleaning it again
changes nothing if and only if it has no quotes at its ends. A name with neither blanks nor quotes
at its ends is left of every such layer around it. -/
theorem identities_lose_one_layer (identity : String) :
    (∃ left right : Wrapping,
      identity.toList = left.around right (cleanIdentity identity).toList ∧
      (∀ c ∈ (cleanIdentity identity).toList.head?, isQuote c = true →
        left.quotes ≠ [] ∧ left.inner ≠ []) ∧
      ∀ c ∈ (cleanIdentity identity).toList.getLast?, isQuote c = true →
        right.quotes ≠ [] ∧ right.inner ≠ []) ∧
    Tight isBlank (cleanIdentity identity).toList ∧
    (cleanIdentity (cleanIdentity identity) = cleanIdentity identity ↔
      Tight isQuote (cleanIdentity identity).toList) ∧
    (identity ≠ "" → Tight isBlank identity.toList → Tight isQuote identity.toList →
      ∀ left right : Wrapping,
        cleanIdentity (String.ofList (left.around right identity.toList)) = identity) := by
  refine ⟨exists_around_eq identity, tight_cleanIdentity identity,
    cleanIdentity_cleanIdentity_iff identity, ?_⟩
  intro filled blanks quotes left right
  have characters : identity.toList ≠ [] := mt String.toList_eq_nil_iff.mp filled
  rw [cleanIdentity_wrap characters blanks quotes, String.ofList_toList]

/-- Of quotes inside quotes, with blanks between them, the inner ones stay, and cleaning again
removes them. -/
theorem quotes_inside_quotes_stay :
    cleanIdentity "\" 'CN=Ops' \"" = "'CN=Ops'" ∧
      ¬ Tight isQuote (cleanIdentity "\" 'CN=Ops' \"").toList ∧
      cleanIdentity (cleanIdentity "\" 'CN=Ops' \"") ≠ cleanIdentity "\" 'CN=Ops' \"" := by
  have once : cleanIdentity "\" 'CN=Ops' \"" = "'CN=Ops'" := by decide +kernel
  have twice : cleanIdentity "'CN=Ops'" = "CN=Ops" := by decide +kernel
  rw [once, twice]
  refine ⟨rfl, fun tight => ?_, by decide⟩
  have first := tight.first '\'' rfl
  revert first
  decide

end SpnegoRealm.Mapping
