import SpnegoRealm.Proofs.Text.ByteOrder

/-! # Bytes that are texts

Strict decoding gives a text back from its bytes and refuses all other bytes
(`SpnegoRealm.Text.ofUtf8?_eq_some_iff`). Lossy decoding gives a text back from its bytes, whatever
follows them (`SpnegoRealm.Text.ofUtf8Lossy_append`), so it loses nothing of bytes that are UTF-8.
Bytes below 128 stand for themselves only (`SpnegoRealm.Text.eq_of_mem_utf8EncodeChar`).
-/

namespace SpnegoRealm.Text

/-- Bytes that some text encodes to. -/
def IsUtf8 (bytes : Bytes) : Prop := ∃ text, utf8 text = bytes

/-- The bytes of two texts put together are those of the first and then those of the second. -/
theorem utf8_append (first second : String) :
    utf8 (first ++ second) = utf8 first ++ utf8 second := by
  rw [utf8_eq_flatMap, utf8_eq_flatMap, utf8_eq_flatMap, String.toList_append, List.flatMap_append]

/-- No bytes at all are UTF-8. -/
theorem isUtf8_nil : IsUtf8 [] := ⟨"", utf8_eq_flatMap ""⟩

/-- UTF-8 behind UTF-8 is UTF-8. -/
theorem IsUtf8.append {first second : Bytes} (left : IsUtf8 first) (right : IsUtf8 second) :
    IsUtf8 (first ++ second) := by
  obtain ⟨one, rfl⟩ := left
  obtain ⟨two, rfl⟩ := right
  exact ⟨one ++ two, utf8_append one two⟩

private theorem isUtf8_flatMap (characters : List Char) :
    IsUtf8 (characters.flatMap String.utf8EncodeChar) :=
  ⟨String.ofList characters, by rw [utf8_eq_flatMap, String.toList_ofList]⟩

/-- Strict decoding gives back the text that bytes encode, and refuses all other bytes. -/
theorem ofUtf8?_eq_some_iff {bytes : Bytes} {text : String} :
    ofUtf8? bytes = some text ↔ utf8 text = bytes := by
  unfold ofUtf8? String.fromUTF8?
  rw [utf8_eq_data]
  split
  next valid =>
    rw [Option.some_inj, ← String.toByteArray_inj]
    constructor
    · intro same
      rw [← same]
      rfl
    · rintro rfl
      rfl
  next invalid =>
    refine iff_of_false (fun impossible => by cases impossible) ?_
    rintro rfl
    exact invalid text.isValidUTF8

/-- A byte below 128 is a character of its own. -/
theorem eq_of_mem_utf8EncodeChar {c : Char} {byte : UInt8} (ascii : byte.toNat < 0x80)
    (member : byte ∈ String.utf8EncodeChar c) : c.toNat = byte.toNat := by
  have bound := val_toNat_lt c
  change c.val.toNat = byte.toNat
  unfold String.utf8EncodeChar at member
  simp only at member
  split_ifs at member <;>
    simp only [List.mem_cons, List.not_mem_nil, or_false, ← UInt8.toNat_inj,
      UInt8.toNat_ofNat'] at member <;> omega

private theorem utf8EncodeChar_eq_singleton {c : Char} {byte : UInt8} (ascii : byte.toNat < 0x80)
    (code : c.toNat = byte.toNat) : String.utf8EncodeChar c = [byte] := by
  have small : c.val.toNat ≤ 0x7F := by
    change c.toNat ≤ 0x7F
    omega
  have single : c.utf8Size = 1 := Char.utf8Size_eq_one_iff.mpr small
  have same : c.val.toUInt8 = byte := by
    rw [← UInt8.toNat_inj, UInt32.toNat_toUInt8, Nat.mod_eq_of_lt (Nat.lt_succ_of_le (by omega))]
    exact code
  rw [String.utf8EncodeChar_eq_singleton single, same]

/-- A byte below 128 is UTF-8. -/
theorem isUtf8_singleton {byte : UInt8} (ascii : byte.toNat < 0x80) : IsUtf8 [byte] := by
  have valid : byte.toUInt32.isValidChar := by
    refine Or.inl ?_
    rw [UInt8.toNat_toUInt32]
    omega
  let c : Char := ⟨byte.toUInt32, valid⟩
  have code : c.toNat = byte.toNat := byte.toNat_toUInt32
  have alone := isUtf8_flatMap [c]
  rwa [List.flatMap_singleton, utf8EncodeChar_eq_singleton ascii code] at alone

private theorem of_flatMap_eq_append_cons {byte : UInt8} (ascii : byte.toNat < 0x80)
    {characters : List Char} {before after : Bytes}
    (encoded : characters.flatMap String.utf8EncodeChar = before ++ byte :: after) :
    IsUtf8 before ∧ IsUtf8 after := by
  induction characters generalizing before with
  | nil => exact (List.append_ne_nil_of_right_ne_nil _ (List.cons_ne_nil _ _) encoded.symm).elim
  | cons c others ih =>
      rw [List.flatMap_cons, List.append_eq_append_iff] at encoded
      have head : IsUtf8 (String.utf8EncodeChar c) :=
        List.flatMap_singleton String.utf8EncodeChar c ▸ isUtf8_flatMap [c]
      rcases encoded with ⟨further, rfl, rest⟩ | ⟨cut, split, rest⟩
      · obtain ⟨left, right⟩ := ih rest
        exact ⟨head.append left, right⟩
      · cases cut with
        | nil =>
            rw [List.append_nil] at split
            have alone : others.flatMap String.utf8EncodeChar = [] ++ byte :: after := rest.symm
            exact ⟨split ▸ head, (ih alone).2⟩
        | cons first remaining =>
            obtain ⟨rfl, rfl⟩ := List.cons.inj rest
            -- the byte is all of the character
            have member : byte ∈ String.utf8EncodeChar c :=
              split ▸ List.mem_append_right _ List.mem_cons_self
            rw [utf8EncodeChar_eq_singleton ascii (eq_of_mem_utf8EncodeChar ascii member),
              List.singleton_eq_append_iff] at split
            rcases split with ⟨rfl, alone⟩ | ⟨-, impossible⟩
            · obtain rfl := List.tail_eq_of_cons_eq alone
              exact ⟨isUtf8_nil, isUtf8_flatMap others⟩
            · cases impossible

/-- Bytes are a text if and only if the parts before and after a byte below 128 are. -/
theorem isUtf8_append_cons_iff {byte : UInt8} (ascii : byte.toNat < 0x80) (before after : Bytes) :
    IsUtf8 (before ++ byte :: after) ↔ IsUtf8 before ∧ IsUtf8 after := by
  constructor
  · rintro ⟨text, encoded⟩
    rw [utf8_eq_flatMap] at encoded
    exact of_flatMap_eq_append_cons ascii encoded
  · rintro ⟨left, right⟩
    exact left.append ((isUtf8_singleton ascii).append right)

/-! ## Lossy decoding -/

namespace Utf8

/-- A first byte opens a sequence of several bytes that goes on with a second byte. -/
def Opens (first : UInt8) (width : ℕ) (second : UInt8) : Prop :=
  ∃ low high, opening? first = some (width, low, high) ∧ low ≤ second ∧ second ≤ high

variable {first second third fourth : UInt8}

private theorem Opens.not_ascii {width : ℕ} (opens : Opens first width second) :
    ¬ first < 0x80 := by
  obtain ⟨low, high, opens, -⟩ := opens
  intro ascii
  rw [UInt8.lt_iff_toNat_lt] at ascii
  simp only [opening?, UInt8.le_iff_toNat_le, Bool.and_eq_true, decide_eq_true_eq, beq_iff_eq,
    ← UInt8.toNat_inj, UInt8.reduceToNat] at opens ascii
  split_ifs at opens <;> omega

/-- The bytes that go on a sequence are those from 128 to 191. -/
def GoesOn (byte : UInt8) : Prop := 0x80 ≤ byte.toNat ∧ byte.toNat ≤ 0xBF

private theorem isContinuation_of_goesOn (goesOn : GoesOn first) : isContinuation first = true := by
  unfold GoesOn at goesOn
  simpa only [isContinuation, UInt8.le_iff_toNat_le, Bool.and_eq_true, decide_eq_true_eq,
    UInt8.reduceToNat] using goesOn

private theorem opens_two (least : 0xC2 ≤ first.toNat) (greatest : first.toNat ≤ 0xDF)
    (goesOn : GoesOn second) : Opens first 2 second := by
  refine ⟨0x80, 0xBF, ?_, goesOn⟩
  rw [opening?, if_pos]
  simpa only [UInt8.le_iff_toNat_le, Bool.and_eq_true, decide_eq_true_eq, UInt8.reduceToNat]
    using And.intro least greatest

/-- A sequence of three bytes has no shorter one in its place, and is no surrogate. -/
theorem opens_three (least : 0xE0 ≤ first.toNat) (greatest : first.toNat ≤ 0xEF)
    (goesOn : GoesOn second) (shortest : first.toNat = 0xE0 → 0xA0 ≤ second.toNat)
    (proper : first.toNat = 0xED → second.toNat ≤ 0x9F) : Opens first 3 second := by
  obtain ⟨above, below⟩ := goesOn
  simp only [Opens, opening?, UInt8.le_iff_toNat_le, Bool.and_eq_true, decide_eq_true_eq,
    beq_iff_eq, ← UInt8.toNat_inj, UInt8.reduceToNat]
  split_ifs
  any_goals omega
  all_goals exact ⟨_, _, rfl, by simp only [UInt8.reduceToNat]; omega,
    by simp only [UInt8.reduceToNat]; omega⟩

/-- A sequence of four bytes has no shorter one in its place, and is no code beyond the last. -/
theorem opens_four (least : 0xF0 ≤ first.toNat) (greatest : first.toNat ≤ 0xF4)
    (goesOn : GoesOn second) (shortest : first.toNat = 0xF0 → 0x90 ≤ second.toNat)
    (proper : first.toNat = 0xF4 → second.toNat ≤ 0x8F) : Opens first 4 second := by
  obtain ⟨above, below⟩ := goesOn
  simp only [Opens, opening?, UInt8.le_iff_toNat_le, Bool.and_eq_true, decide_eq_true_eq,
    beq_iff_eq, ← UInt8.toNat_inj, UInt8.reduceToNat]
  split_ifs
  any_goals omega
  all_goals exact ⟨_, _, rfl, by simp only [UInt8.reduceToNat]; omega,
    by simp only [UInt8.reduceToNat]; omega⟩

private theorem ofUtf8Lossy_of_two (opens : Opens first 2 second) (rest : Bytes) :
    ofUtf8Lossy (first :: second :: rest) =
      assemble (first.toNat - 0xC0) [second] :: ofUtf8Lossy rest := by
  have ascii := opens.not_ascii
  obtain ⟨low, high, opens, above, below⟩ := opens
  rw [ofUtf8Lossy.eq_def]
  simp [ascii, opens, above, below]

private theorem ofUtf8Lossy_of_three (opens : Opens first 3 second) (goesOn : GoesOn third)
    (rest : Bytes) :
    ofUtf8Lossy (first :: second :: third :: rest) =
      assemble (first.toNat - 0xE0) [second, third] :: ofUtf8Lossy rest := by
  have ascii := opens.not_ascii
  obtain ⟨low, high, opens, above, below⟩ := opens
  rw [ofUtf8Lossy.eq_def]
  simp [ascii, opens, above, below, isContinuation_of_goesOn goesOn]

private theorem ofUtf8Lossy_of_four (opens : Opens first 4 second) (goesOn : GoesOn third)
    (ends : GoesOn fourth) (rest : Bytes) :
    ofUtf8Lossy (first :: second :: third :: fourth :: rest) =
      assemble (first.toNat - 0xF0) [second, third, fourth] :: ofUtf8Lossy rest := by
  have ascii := opens.not_ascii
  obtain ⟨low, high, opens, above, below⟩ := opens
  rw [ofUtf8Lossy.eq_def]
  simp [ascii, opens, above, below, isContinuation_of_goesOn goesOn, isContinuation_of_goesOn ends]

private theorem assemble_eq {lead : ℕ} {continuations : List UInt8} {c : Char}
    (code : continuations.foldl (fun code byte => code * 64 + (byte.toNat - 0x80)) lead =
      c.val.toNat) : assemble lead continuations = c := by
  rw [assemble, code]
  exact Char.ofNat_toNat c

end Utf8

open Utf8 in
/-- Lossy decoding gives a character back from its bytes, whatever follows them. -/
theorem ofUtf8Lossy_utf8EncodeChar_append (c : Char) (rest : Bytes) :
    ofUtf8Lossy (String.utf8EncodeChar c ++ rest) = c :: ofUtf8Lossy rest := by
  have bound := val_toNat_lt c
  have valid := c.valid
  simp only [UInt32.isValidChar, Nat.isValidChar] at valid
  have low (quotient : ℕ) : (UInt8.ofNat (quotient % 64 + 128)).toNat = quotient % 64 + 128 := by
    rw [UInt8.toNat_ofNat']
    omega
  have goesOn (quotient : ℕ) : GoesOn (UInt8.ofNat (quotient % 64 + 128)) := by
    rw [GoesOn, low]
    omega
  unfold String.utf8EncodeChar
  simp only
  split_ifs with one two three
  · have ascii : UInt8.ofNat c.val.toNat < 0x80 := by
      rw [UInt8.lt_iff_toNat_lt, UInt8.toNat_ofNat']
      exact (Nat.mod_le _ _).trans_lt (Nat.lt_succ_of_le one)
    have code : (UInt8.ofNat c.val.toNat).toNat = c.val.toNat :=
      UInt8.toNat_ofNat_of_lt (one.trans_lt (by decide))
    rw [List.cons_append, List.nil_append, ofUtf8Lossy.eq_def]
    simp only [ascii, ↓reduceIte, code]
    exact congrArg (· :: _) (Char.ofNat_toNat c)
  · have first : (UInt8.ofNat (c.val.toNat / 64 % 32 + 192)).toNat = c.val.toNat / 64 + 192 := by
      rw [UInt8.toNat_ofNat']
      omega
    rw [List.cons_append, List.cons_append, List.nil_append,
      ofUtf8Lossy_of_two (opens_two (by omega) (by omega) (goesOn _)), assemble_eq]
    simp only [List.foldl_cons, List.foldl_nil, first, low]
    omega
  · have first : (UInt8.ofNat (c.val.toNat / 4096 % 16 + 224)).toNat =
        c.val.toNat / 4096 + 224 := by
      rw [UInt8.toNat_ofNat']
      omega
    rw [List.cons_append, List.cons_append, List.cons_append, List.nil_append,
      ofUtf8Lossy_of_three (opens_three (by omega) (by omega) (goesOn _)
        (by rw [low]; omega) (by rw [low]; omega)) (goesOn _),
      assemble_eq]
    simp only [List.foldl_cons, List.foldl_nil, first, low]
    omega
  · have first : (UInt8.ofNat (c.val.toNat / 262144 % 8 + 240)).toNat =
        c.val.toNat / 262144 + 240 := by
      rw [UInt8.toNat_ofNat']
      omega
    rw [List.cons_append, List.cons_append, List.cons_append, List.cons_append, List.nil_append,
      ofUtf8Lossy_of_four (opens_four (by omega) (by omega) (goesOn _)
        (by rw [low]; omega) (by rw [low]; omega)) (goesOn _)
        (goesOn _), assemble_eq]
    simp only [List.foldl_cons, List.foldl_nil, first, low]
    omega

/-- **Lossy decoding gives a text back from its bytes**, whatever follows them. -/
theorem ofUtf8Lossy_append (text : String) (rest : Bytes) :
    ofUtf8Lossy (utf8 text ++ rest) = text.toList ++ ofUtf8Lossy rest := by
  rw [utf8_eq_flatMap]
  induction text.toList with
  | nil => rfl
  | cons c others ih =>
      rw [List.flatMap_cons, List.append_assoc, ofUtf8Lossy_utf8EncodeChar_append, ih,
        List.cons_append]

/-- Lossy decoding gives back every text from its bytes. -/
theorem ofUtf8Lossy_utf8 (text : String) : ofUtf8Lossy (utf8 text) = text.toList := by
  have whole := ofUtf8Lossy_append text []
  rwa [List.append_nil, ofUtf8Lossy, List.append_nil] at whole

end SpnegoRealm.Text
