import Mathlib.Data.String.Basic
import SpnegoRealm.Text.Utf8

/-! # Byte order

Texts are compared by their code points. The encoding keeps this order: of two texts, the smaller
one is the one whose bytes are smaller (`SpnegoRealm.Text.utf8_lt_utf8_iff`).
-/

namespace SpnegoRealm.Text

private theorem toList_loop (array : ByteArray) (index : ℕ) (sofar : List UInt8) :
    ByteArray.toList.loop array index sofar =
      sofar.reverse ++ array.data.toList.drop index := by
  fun_induction ByteArray.toList.loop array index sofar with
  | case1 index sofar inside ih =>
      have entry : array.get! index = array.data[index] := getElem!_pos array.data index inside
      have bound : index < array.data.toList.length := inside
      rw [ih, List.drop_eq_getElem_cons bound, Array.getElem_toList, ← entry, List.reverse_cons,
        List.append_assoc, List.singleton_append]
  | case2 index sofar outside =>
      have beyond : array.data.toList.length ≤ index := Nat.le_of_not_lt outside
      rw [List.drop_eq_nil_of_le beyond, List.append_nil]

/-- The bytes of a text are those that it is kept as. -/
theorem utf8_eq_data (text : String) : utf8 text = text.toByteArray.data.toList := by
  unfold utf8
  rw [String.toUTF8_eq_toByteArray]
  unfold ByteArray.toList
  rw [toList_loop, List.reverse_nil, List.nil_append, List.drop_zero]

/-- The bytes of a text are those of its characters, one after the other. -/
theorem utf8_eq_flatMap (text : String) :
    utf8 text = text.toList.flatMap String.utf8EncodeChar := by
  have encoded : text.toByteArray = text.toList.utf8Encode := String.utf8Encode_toList.symm
  rw [utf8_eq_data, encoded, List.utf8Encode]
  simp

/-- Each ASCII character is one byte. -/
theorem flatMap_utf8EncodeChar_of_ascii {characters : List Char}
    (ascii : ∀ c ∈ characters, c.toNat < 0x80) :
    characters.flatMap String.utf8EncodeChar = characters.map Char.toUInt8 := by
  induction characters with
  | nil => rfl
  | cons c rest ih =>
      have small : c.val.toNat ≤ 0x7F := Nat.le_of_lt_succ (ascii c List.mem_cons_self)
      have single : c.utf8Size = 1 := Char.utf8Size_eq_one_iff.mpr small
      rw [List.flatMap_cons, List.map_cons, String.utf8EncodeChar_eq_singleton single,
        ih fun other member => ascii other (List.mem_cons_of_mem _ member)]
      rfl

/-- No character lies beyond the end of Unicode. -/
theorem val_toNat_lt (c : Char) : c.val.toNat < 0x110000 := by
  have valid := c.valid
  simp only [UInt32.isValidChar, Nat.isValidChar] at valid
  omega

/-- The bytes of a smaller character are smaller, whatever follows them. -/
theorem utf8EncodeChar_append_lt {first second : Char} (less : first < second)
    (rest others : Bytes) :
    String.utf8EncodeChar first ++ rest < String.utf8EncodeChar second ++ others := by
  have codes : first.val.toNat < second.val.toNat := less
  have bound := val_toNat_lt second
  -- the quotients of longer sequences, as repeated quotients by 64
  have firstHigh : first.val.toNat / 262144 = first.val.toNat / 64 / 64 / 64 := by omega
  have secondHigh : second.val.toNat / 262144 = second.val.toNat / 64 / 64 / 64 := by omega
  have firstMiddle : first.val.toNat / 4096 = first.val.toNat / 64 / 64 := by omega
  have secondMiddle : second.val.toNat / 4096 = second.val.toNat / 64 / 64 := by omega
  unfold String.utf8EncodeChar
  simp only [firstHigh, secondHigh, firstMiddle, secondMiddle]
  split_ifs <;>
    simp (disch := omega) only [List.cons_append, List.nil_append, List.cons_lt_cons_iff,
      UInt8.lt_iff_toNat_lt, ← UInt8.toNat_inj, UInt8.toNat_ofNat', Nat.mod_eq_of_lt] <;> omega

/-- Character by character, a smaller text has smaller bytes. -/
theorem flatMap_utf8EncodeChar_lt {first second : List Char} (less : first < second) :
    first.flatMap String.utf8EncodeChar < second.flatMap String.utf8EncodeChar := by
  induction less with
  | @nil c rest =>
      rw [List.flatMap_nil, List.flatMap_cons]
      cases encoded : String.utf8EncodeChar c with
      | nil => exact (String.utf8EncodeChar_ne_nil encoded).elim
      | cons byte bytes => exact List.nil_lt_cons _ _
  | @cons c rest others _ ih =>
      rw [List.flatMap_cons, List.flatMap_cons]
      exact List.append_left_lt ih
  | rel less =>
      rw [List.flatMap_cons, List.flatMap_cons]
      exact utf8EncodeChar_append_lt less _ _

/-- **Byte order is code point order.** -/
theorem utf8_lt_utf8_iff {first second : String} : utf8 first < utf8 second ↔ first < second := by
  rw [utf8_eq_flatMap, utf8_eq_flatMap]
  constructor
  · intro less
    rcases lt_trichotomy first second with smaller | rfl | greater
    · exact smaller
    · exact (List.lt_irrefl _ less).elim
    · exact (List.lt_asymm less (flatMap_utf8EncodeChar_lt (String.lt_iff_toList_lt.mp greater))).elim
  · intro less
    exact flatMap_utf8EncodeChar_lt (String.lt_iff_toList_lt.mp less)

/-- A text is told by its bytes. -/
theorem utf8_injective : Function.Injective utf8 := by
  intro first second same
  rcases lt_trichotomy first second with smaller | equal | greater
  · exact (List.lt_irrefl _ (same ▸ utf8_lt_utf8_iff.mpr smaller)).elim
  · exact equal
  · exact (List.lt_irrefl _ (same ▸ utf8_lt_utf8_iff.mpr greater)).elim

end SpnegoRealm.Text
