import Mathlib.Data.Nat.Digits.Lemmas
import SpnegoRealm.Sid

/-! # Security identifiers and their bytes

Reading the binary form accepts exactly what writing it produces, with anything after it
(`SpnegoRealm.Sid.ofBytes?_eq_some_iff`), and an identifier is told by its text
(`SpnegoRealm.Sid.text_injective`). So the text of a buffer tells the bytes that the buffer's count
claims, and no others. The main theorem also says where in the buffer each number stands
(`SpnegoRealm.Sid.buffers_are_read_as_they_claim`).
-/

namespace SpnegoRealm.Sid

/-! ## Numbers in bytes -/

/-- The bytes of a number in some width, the least significant first. -/
def leastFirst (width value : ℕ) : Bytes := (Nat.digitsAppend 256 width value).map UInt8.ofNat

private theorem littleEndian_eq_ofDigits (bytes : Bytes) :
    littleEndian bytes = Nat.ofDigits 256 (bytes.map UInt8.toNat) := by
  induction bytes with
  | nil => rfl
  | cons byte rest ih =>
      rw [littleEndian, ih, List.map_cons, Nat.ofDigits_cons]

private theorem digit_of_mem {bytes : Bytes} {digit : ℕ} (member : digit ∈ bytes.map UInt8.toNat) :
    digit < 256 := by
  obtain ⟨byte, -, rfl⟩ := List.mem_map.mp member
  exact byte.toNat_lt

private theorem littleEndian_lt (bytes : Bytes) : littleEndian bytes < 256 ^ bytes.length := by
  have bound : Nat.ofDigits 256 (bytes.map UInt8.toNat) < 256 ^ (bytes.map UInt8.toNat).length :=
    Nat.ofDigits_lt_base_pow_length (by decide) fun _ => digit_of_mem
  rwa [List.length_map, ← littleEndian_eq_ofDigits] at bound

private theorem length_leastFirst {width value : ℕ} (fits : value < 256 ^ width) :
    (leastFirst width value).length = width := by
  rw [leastFirst, List.length_map, Nat.length_digitsAppend (by decide) width fits]

/-- A number that fits a width is read back from what is written for it. -/
theorem littleEndian_leastFirst {width value : ℕ} (fits : value < 256 ^ width) :
    littleEndian (leastFirst width value) = value := by
  have digits : (leastFirst width value).map UInt8.toNat = Nat.digitsAppend 256 width value := by
    rw [leastFirst, List.map_map]
    refine (List.map_congr_left fun digit member => ?_).trans (List.map_id _)
    exact UInt8.toNat_ofNat_of_lt (Nat.lt_of_mem_digitsAppend (by decide) width digit member)
  rw [littleEndian_eq_ofDigits, digits]
  exact (Nat.setInvOn_digitsAppend_ofDigits (by decide) width).2 fits

/-- Bytes are what is written for the number that is read of them. -/
theorem leastFirst_littleEndian (bytes : Bytes) :
    leastFirst bytes.length (littleEndian bytes) = bytes := by
  have digits : Nat.digitsAppend 256 bytes.length (littleEndian bytes) =
      bytes.map UInt8.toNat := by
    rw [littleEndian_eq_ofDigits]
    exact (Nat.setInvOn_digitsAppend_ofDigits (by decide) bytes.length).1
      ⟨List.length_map _, fun _ => digit_of_mem⟩
  rw [leastFirst, digits, List.map_map]
  exact (List.map_congr_left fun byte _ => UInt8.ofNat_toNat).trans (List.map_id _)

/-- A big-endian number is the little-endian one of the bytes in reverse. -/
theorem bigEndian_eq (bytes : Bytes) : bigEndian bytes = littleEndian bytes.reverse := by
  induction bytes using List.reverseRecOn with
  | nil => rfl
  | append_singleton before byte ih =>
      rw [bigEndian, List.foldl_append, List.reverse_append]
      change bigEndian before * 256 + byte.toNat = byte.toNat + 256 * littleEndian before.reverse
      rw [ih, Nat.mul_comm, Nat.add_comm]

private theorem bigEndian_lt (bytes : Bytes) : bigEndian bytes < 256 ^ bytes.length := by
  have bound := littleEndian_lt bytes.reverse
  rwa [← bigEndian_eq, List.length_reverse] at bound

/-- The number that bytes write with the most significant first, put together in a word. -/
def bigEndianWord (bytes : Bytes) : UInt64 :=
  bytes.foldl (fun value byte => value <<< 8 ||| byte.toUInt64) 0

/-- Eight bytes do not overflow the word. -/
theorem toNat_bigEndianWord {bytes : Bytes} (short : bytes.length ≤ 8) :
    (bigEndianWord bytes).toNat = bigEndian bytes := by
  induction bytes using List.reverseRecOn with
  | nil => rfl
  | append_singleton before byte ih =>
      rw [List.length_append, List.length_singleton] at short
      have word := ih (by omega)
      have bound : bigEndian before < 256 ^ 7 :=
        (bigEndian_lt before).trans_le (Nat.pow_le_pow_right (by decide) (by omega))
      have small : byte.toNat < 2 ^ 8 := byte.toNat_lt
      rw [bigEndianWord, bigEndian, List.foldl_append, List.foldl_append]
      change (bigEndianWord before <<< 8 ||| byte.toUInt64).toNat =
        bigEndian before * 256 + byte.toNat
      have shifted : (bigEndianWord before <<< 8).toNat = 2 ^ 8 * bigEndian before := by
        rw [UInt64.toNat_shiftLeft, word, Nat.shiftLeft_eq]
        change bigEndian before * 2 ^ 8 % 2 ^ 64 = 2 ^ 8 * bigEndian before
        omega
      rw [UInt64.toNat_or, shifted, UInt8.toNat_toUInt64, ← Nat.two_pow_add_eq_or_of_lt small]
      omega

/-! ## The binary form -/

/-- The numbers of an identifier fit their places in the binary form. -/
structure Fits (sid : Sid) : Prop where
  revision : sid.revision < 2 ^ 8
  authority : sid.authority < 2 ^ 48
  count : sid.subAuthorities.length ≤ 255
  subAuthorities : ∀ sub ∈ sid.subAuthorities, sub < 2 ^ 32

/-- The binary form. -/
def bytes (sid : Sid) : Bytes :=
  UInt8.ofNat sid.revision :: UInt8.ofNat sid.subAuthorities.length ::
    ((leastFirst 6 sid.authority).reverse ++ sid.subAuthorities.flatMap (leastFirst 4))

private theorem isSome_subAuthorities?_iff (count : ℕ) (rest : Bytes) :
    (subAuthorities? count rest).isSome ↔ 4 * count ≤ rest.length := by
  fun_induction subAuthorities? count rest with
  | case1 rest => simp
  | case2 count a b c d rest ih =>
      rw [Option.isSome_map, ih]
      simp only [List.length_cons]
      omega
  | case3 count rest short =>
      refine iff_of_false Bool.false_ne_true fun long => ?_
      match rest, short with
      | a :: b :: c :: d :: rest, short => exact short a b c d rest rfl
      | [], _ | [_], _ | [_, _], _ | [_, _, _], _ =>
        simp only [List.length_cons, List.length_nil] at long
        omega

private theorem of_subAuthorities?_eq_some {count : ℕ} {rest : Bytes} {subs : List ℕ}
    (read : subAuthorities? count rest = some subs) :
    subs.length = count ∧ (∀ sub ∈ subs, sub < 2 ^ 32) ∧
      ∃ tail, rest = subs.flatMap (leastFirst 4) ++ tail := by
  fun_induction subAuthorities? count rest generalizing subs with
  | case1 rest =>
      obtain rfl := Option.some.inj read
      exact ⟨rfl, List.forall_mem_nil _, rest, rfl⟩
  | case2 count a b c d rest ih =>
      obtain ⟨others, readOthers, rfl⟩ := Option.map_eq_some_iff.mp read
      obtain ⟨length, small, tail, rfl⟩ := ih readOthers
      refine ⟨congrArg Nat.succ length, List.forall_mem_cons.mpr ⟨?_, small⟩, tail, ?_⟩
      · exact (littleEndian_lt [a, b, c, d]).trans_eq (by norm_num)
      · rw [List.flatMap_cons, List.append_assoc]
        exact congrArg (· ++ _) (leastFirst_littleEndian [a, b, c, d]).symm
  | case3 => cases read

/-- Sub-authorities are read back from their bytes, whatever follows. -/
theorem subAuthorities?_flatMap {subs : List ℕ} (small : ∀ sub ∈ subs, sub < 2 ^ 32)
    (tail : Bytes) :
    subAuthorities? subs.length (subs.flatMap (leastFirst 4) ++ tail) = some subs := by
  induction subs with
  | nil => rfl
  | cons sub others ih =>
      obtain ⟨first, rest⟩ := List.forall_mem_cons.mp small
      have fits : sub < 256 ^ 4 := first.trans_eq (by norm_num)
      have value := littleEndian_leastFirst fits
      have length := length_leastFirst fits
      match four : leastFirst 4 sub, length with
      | [a, b, c, d], _ =>
        rw [four] at value
        rw [List.length_cons, List.flatMap_cons, four]
        change (subAuthorities? others.length (others.flatMap (leastFirst 4) ++ tail)).map
          (littleEndian [a, b, c, d] :: ·) = some (sub :: others)
        rw [ih rest, value]
        rfl

/-- **Reading accepts what writing produces**, with anything after it. -/
theorem ofBytes?_eq_some_iff {buffer : Bytes} {sid : Sid} :
    ofBytes? buffer = some sid ↔ sid.Fits ∧ ∃ tail, buffer = sid.bytes ++ tail := by
  constructor
  · intro read
    fun_cases ofBytes? buffer with
    | case1 revision count a b c d e f rest =>
        obtain ⟨subs, readSubs, rfl⟩ := Option.map_eq_some_iff.mp read
        obtain ⟨length, small, tail, rfl⟩ := of_subAuthorities?_eq_some readSubs
        have authority : bigEndian [a, b, c, d, e, f] < 2 ^ 48 :=
          (bigEndian_lt [a, b, c, d, e, f]).trans_eq (by norm_num)
        have few : subs.length ≤ 255 := length ▸ Nat.le_of_lt_succ count.toNat_lt
        refine ⟨⟨revision.toNat_lt, authority, few, small⟩, tail, ?_⟩
        have written : leastFirst 6 (bigEndian [a, b, c, d, e, f]) = [f, e, d, c, b, a] := by
          rw [bigEndian_eq]
          exact leastFirst_littleEndian [f, e, d, c, b, a]
        simp [bytes, length, written]
    | case2 => simp_all [ofBytes?]
  · rintro ⟨fits, tail, rfl⟩
    have narrow : sid.authority < 256 ^ 6 := fits.authority.trans_eq (by norm_num)
    have value := littleEndian_leastFirst narrow
    have length := length_leastFirst narrow
    have revision : (UInt8.ofNat sid.revision).toNat = sid.revision :=
      UInt8.toNat_ofNat_of_lt fits.revision
    have count : (UInt8.ofNat sid.subAuthorities.length).toNat = sid.subAuthorities.length :=
      UInt8.toNat_ofNat_of_lt (Nat.lt_succ_of_le fits.count)
    match six : leastFirst 6 sid.authority, length with
    | [f, e, d, c, b, a], _ =>
      have authority : bigEndian [a, b, c, d, e, f] = sid.authority := by
        rw [bigEndian_eq, ← value, six]
        rfl
      rw [bytes, six]
      change (subAuthorities? (UInt8.ofNat sid.subAuthorities.length).toNat
        (sid.subAuthorities.flatMap (leastFirst 4) ++ tail)).map _ = some sid
      rw [count, subAuthorities?_flatMap fits.subAuthorities, revision, authority]
      rfl

private theorem length_flatMap_leastFirst {subs : List ℕ} (small : ∀ sub ∈ subs, sub < 2 ^ 32) :
    (subs.flatMap (leastFirst 4)).length = 4 * subs.length := by
  induction subs with
  | nil => rfl
  | cons sub others ih =>
      obtain ⟨first, rest⟩ := List.forall_mem_cons.mp small
      rw [List.flatMap_cons, List.length_append, ih rest, List.length_cons,
        length_leastFirst (first.trans_eq (by norm_num))]
      omega

/-! ## The text form -/

/-- The numbers that the text form writes. -/
def numbers (sid : Sid) : List ℕ := sid.revision :: sid.authority :: sid.subAuthorities

/-- An `S` and some decimal numbers, with dashes between them. -/
def dashed (numbers : List ℕ) : String := "-".intercalate ("S" :: numbers.map Nat.repr)

private theorem numbers_injective : Function.Injective numbers := by
  rintro ⟨revision, authority, subs⟩ ⟨_, _, _⟩ same
  obtain ⟨rfl, rfl, rfl⟩ : _ ∧ _ ∧ _ := by simpa [numbers] using same
  rfl

/-- The text of an identifier is that of its numbers with dashes between them. -/
theorem text_eq_dashed (sid : Sid) : sid.text = dashed sid.numbers := by
  have joined (subs : List ℕ) (start : String) :
      subs.foldl (fun sofar sub => s!"{sofar}-{sub}") start =
        "-".intercalate (start :: subs.map Nat.repr) := by
    induction subs generalizing start with
    | nil => exact String.intercalate_singleton.symm
    | cons sub others ih =>
        rw [List.foldl_cons, ih, List.map_cons, String.intercalate_cons_cons,
          ← String.intercalate_cons_append]
        rfl
  rw [text, joined, dashed, numbers, List.map_cons, List.map_cons, String.intercalate_cons_cons,
    String.intercalate_cons_cons, ← String.intercalate_cons_append,
    ← String.intercalate_cons_append]
  rfl

private theorem dash_not_mem_repr (number : ℕ) : '-' ∉ number.repr.toList := by
  intro member
  rw [Nat.toList_repr] at member
  have digit := Nat.isDigit_of_mem_toDigits (by decide) (by decide) member
  exact absurd digit (by decide)

private theorem repr_injective : Function.Injective Nat.repr := by
  intro one two same
  have digits : Nat.toDigits 10 one = Nat.toDigits 10 two := by
    rw [← Nat.toList_repr, ← Nat.toList_repr, same]
  rw [← Nat.ofDigitChars_ten_toDigits (n := one), digits, Nat.ofDigitChars_ten_toDigits]

/-- The numbers between dashes can be told apart. -/
theorem dashed_injective : Function.Injective dashed := by
  intro one two same
  have parts (numbers : List ℕ) :
      ((dashed numbers).split '-').toList.map (·.copy) = "S" :: numbers.map Nat.repr := by
    have whole : ∀ part ∈ "S" :: numbers.map Nat.repr, '-' ∉ part.toList := by
      intro part member
      rcases List.mem_cons.mp member with rfl | written
      · decide
      · obtain ⟨number, -, rfl⟩ := List.mem_map.mp written
        exact dash_not_mem_repr number
    exact (String.toList_split_intercalate whole).trans (if_neg (List.cons_ne_nil _ _))
  have equal : "S" :: one.map Nat.repr = "S" :: two.map Nat.repr := by
    rw [← parts one, ← parts two, same]
  exact List.map_injective_iff.mpr repr_injective (List.tail_eq_of_cons_eq equal)

/-- An identifier is told by its text. -/
theorem text_injective : Function.Injective text := by
  intro one two same
  rw [text_eq_dashed, text_eq_dashed] at same
  exact numbers_injective (dashed_injective same)

/-! ## Buffers -/

/-- The number of bytes that the count in a buffer claims. -/
def claimedLength (buffer : Bytes) : ℕ := 8 + 4 * (buffer.getD 1 0).toNat

/-- Some bytes from a place in a buffer on. -/
def slice (buffer : Bytes) (place width : ℕ) : Bytes := (buffer.drop place).take width

/-- The numbers that stand in a buffer: the first byte, the six bytes after the count as digits with
the most significant first, and as many groups of four bytes as the count says, as digits with the
least significant first. -/
def numbersIn (buffer : Bytes) : List ℕ :=
  (buffer.getD 0 0).toNat :: Nat.ofDigits 256 ((slice buffer 2 6).map UInt8.toNat).reverse ::
    (List.range (buffer.getD 1 0).toNat).map fun index =>
      Nat.ofDigits 256 ((slice buffer (8 + 4 * index) 4).map UInt8.toNat)

private theorem exists_of_eight_le {buffer : Bytes} (long : 8 ≤ buffer.length) :
    ∃ a b c d e f g h rest, buffer = a :: b :: c :: d :: e :: f :: g :: h :: rest := by
  rcases buffer with _ | ⟨a, _ | ⟨b, _ | ⟨c, _ | ⟨d, _ | ⟨e, _ | ⟨f, _ | ⟨g, _ | ⟨h, rest⟩⟩⟩⟩⟩⟩⟩⟩
  case cons.cons.cons.cons.cons.cons.cons.cons => exact ⟨a, b, c, d, e, f, g, h, rest, rfl⟩
  all_goals simp at long

/-- A buffer is read if and only if it is as long as it claims to be. -/
theorem isSome_decode_iff (buffer : Bytes) :
    (decode buffer).isSome ↔ 8 ≤ buffer.length ∧ claimedLength buffer ≤ buffer.length := by
  rw [decode, Option.isSome_map]
  fun_cases ofBytes? buffer with
  | case1 revision count a b c d e f rest =>
      rw [Option.isSome_map, isSome_subAuthorities?_iff]
      simp only [claimedLength, List.length_cons, List.getD_cons_succ, List.getD_cons_zero]
      omega
  | case2 _ other =>
      refine iff_of_false Bool.false_ne_true fun enough => ?_
      obtain ⟨a, b, c, d, e, f, g, h, rest, rfl⟩ := exists_of_eight_le enough.1
      exact other a b c d e f g h rest rfl

section Bytes

variable {sid : Sid}

private theorem length_bytes (fits : sid.Fits) :
    sid.bytes.length = 8 + 4 * sid.subAuthorities.length := by
  have authority : (leastFirst 6 sid.authority).length = 6 :=
    length_leastFirst (fits.authority.trans_eq (by norm_num))
  simp only [bytes, List.length_cons, List.length_append, List.length_reverse, authority,
    length_flatMap_leastFirst fits.subAuthorities]
  omega

private theorem count_bytes (fits : sid.Fits) (tail : Bytes) :
    ((sid.bytes ++ tail).getD 1 0).toNat = sid.subAuthorities.length :=
  UInt8.toNat_ofNat_of_lt (Nat.lt_succ_of_le fits.count)

private theorem claimedLength_bytes (fits : sid.Fits) (tail : Bytes) :
    claimedLength (sid.bytes ++ tail) = sid.bytes.length := by
  rw [claimedLength, count_bytes fits, length_bytes fits]

private theorem slice_flatMap {subs : List ℕ} (small : ∀ sub ∈ subs, sub < 2 ^ 32) (tail : Bytes)
    {index : ℕ} (inside : index < subs.length) :
    slice (subs.flatMap (leastFirst 4) ++ tail) (4 * index) 4 = leastFirst 4 subs[index] := by
  induction subs generalizing index with
  | nil => exact (Nat.not_lt_zero _ inside).elim
  | cons sub others ih =>
      obtain ⟨first, rest⟩ := List.forall_mem_cons.mp small
      have four : (leastFirst 4 sub).length = 4 := length_leastFirst (first.trans_eq (by norm_num))
      rw [List.flatMap_cons, List.append_assoc]
      cases index with
      | zero => exact List.take_left' four
      | succ index =>
          have further : 4 * (index + 1) = 4 + 4 * index := by omega
          rw [slice, further, ← List.drop_drop, List.drop_left' four]
          exact ih rest (Nat.lt_of_succ_lt_succ inside)

/-- The numbers of an identifier stand at their places among its bytes. -/
theorem numbersIn_bytes (fits : sid.Fits) (tail : Bytes) :
    numbersIn (sid.bytes ++ tail) = sid.numbers := by
  have narrow : sid.authority < 256 ^ 6 := fits.authority.trans_eq (by norm_num)
  have six : (leastFirst 6 sid.authority).reverse.length = 6 := by
    rw [List.length_reverse, length_leastFirst narrow]
  have revision : ((sid.bytes ++ tail).getD 0 0).toNat = sid.revision :=
    UInt8.toNat_ofNat_of_lt fits.revision
  have authority : slice (sid.bytes ++ tail) 2 6 = (leastFirst 6 sid.authority).reverse := by
    change ((leastFirst 6 sid.authority).reverse ++ _ ++ tail).take 6 = _
    rw [List.append_assoc]
    exact List.take_left' six
  have subs : (List.range sid.subAuthorities.length).map (fun index =>
      Nat.ofDigits 256 ((slice (sid.bytes ++ tail) (8 + 4 * index) 4).map UInt8.toNat)) =
        sid.subAuthorities := by
    refine List.ext_getElem (by simp) fun index _ inside => ?_
    have four : sid.subAuthorities[index] < 256 ^ 4 :=
      (fits.subAuthorities _ (List.getElem_mem inside)).trans_eq (by norm_num)
    have place : slice (sid.bytes ++ tail) (8 + 4 * index) 4 =
        slice (sid.subAuthorities.flatMap (leastFirst 4) ++ tail) (4 * index) 4 := by
      have header : 8 + 4 * index = 6 + 4 * index + 1 + 1 := by omega
      rw [slice, header, bytes, List.cons_append, List.drop_succ_cons, List.cons_append,
        List.drop_succ_cons, ← List.drop_drop, List.append_assoc, List.drop_left' six, slice]
    rw [List.getElem_map, List.getElem_range, place, slice_flatMap fits.subAuthorities tail inside,
      ← littleEndian_eq_ofDigits, littleEndian_leastFirst four]
  rw [numbersIn, revision, authority, count_bytes fits, subs, ← List.map_reverse,
    List.reverse_reverse, ← littleEndian_eq_ofDigits, littleEndian_leastFirst narrow, numbers]

end Bytes

/-- The text of a buffer tells the bytes that its count claims, and no others. -/
theorem decode_eq_iff {one two : Bytes} (read : (decode one).isSome) :
    decode two = decode one ↔
      two.take (claimedLength one) = one.take (claimedLength one) := by
  rw [decode, Option.isSome_map] at read
  obtain ⟨sid, readOne⟩ := Option.isSome_iff_exists.mp read
  obtain ⟨fits, tail, rfl⟩ := ofBytes?_eq_some_iff.mp readOne
  rw [claimedLength_bytes fits, List.take_left]
  constructor
  · intro same
    rw [decode, decode, readOne, Option.map_some] at same
    obtain ⟨other, readTwo, sameText⟩ := Option.map_eq_some_iff.mp same
    obtain rfl := text_injective sameText
    obtain ⟨-, rest, rfl⟩ := ofBytes?_eq_some_iff.mp readTwo
    exact List.take_left
  · intro same
    have parts : two = sid.bytes ++ two.drop sid.bytes.length := by
      conv_lhs => rw [← List.take_append_drop sid.bytes.length two, same]
    have readTwo := ofBytes?_eq_some_iff.mpr ⟨fits, _, parts⟩
    rw [decode, decode, readOne, readTwo]

/-- **A buffer is read as it claims.** It has a text if and only if it has at least eight bytes and
as many as its count claims. The text writes the numbers that stand in the buffer, and the authority
fits a word of 64 bits however it is put together. What follows the claimed bytes is ignored. Every
identifier whose numbers fit the binary form is read back from it. And two buffers with texts have
the same text if and only if they agree in the bytes that the count claims. -/
theorem buffers_are_read_as_they_claim :
    (∀ buffer : Bytes, decode buffer =
      if 8 ≤ buffer.length ∧ claimedLength buffer ≤ buffer.length then
        some (dashed (numbersIn buffer))
      else none) ∧
    (∀ buffer : Bytes, (bigEndianWord (slice buffer 2 6)).toNat =
      Nat.ofDigits 256 ((slice buffer 2 6).map UInt8.toNat).reverse) ∧
    (∀ buffer : Bytes, decode (buffer.take (claimedLength buffer)) = decode buffer) ∧
    (∀ (sid : Sid) (tail : Bytes), sid.Fits →
      ofBytes? (sid.bytes ++ tail) = some sid ∧ decode (sid.bytes ++ tail) = some sid.text) ∧
    (∀ one two : Bytes, (decode one).isSome →
      (decode two = decode one ↔
        two.take (claimedLength one) = one.take (claimedLength one))) := by
  refine ⟨?texts, ?word, ?ignored, ?readBack, fun one two => decode_eq_iff⟩
  case texts =>
    intro buffer
    split
    next long =>
      have read := (isSome_decode_iff buffer).mpr long
      rw [decode, Option.isSome_map] at read
      obtain ⟨sid, readBuffer⟩ := Option.isSome_iff_exists.mp read
      obtain ⟨fits, tail, rfl⟩ := ofBytes?_eq_some_iff.mp readBuffer
      rw [decode, readBuffer, numbersIn_bytes fits, ← text_eq_dashed]
      rfl
    next short =>
      exact Option.not_isSome_iff_eq_none.mp fun read => short ((isSome_decode_iff buffer).mp read)
  case word =>
    intro buffer
    have short : (slice buffer 2 6).length ≤ 8 := by
      rw [slice, List.length_take]
      omega
    rw [toNat_bigEndianWord short, bigEndian_eq, littleEndian_eq_ofDigits, List.map_reverse]
  case ignored =>
    intro buffer
    by_cases read : (decode buffer).isSome
    · rw [decode_eq_iff read, List.take_take, Nat.min_self]
    · rw [isSome_decode_iff] at read
      have short : buffer.length ≤ claimedLength buffer := by
        unfold claimedLength at *
        omega
      rw [List.take_of_length_le short]
  case readBack =>
    intro sid tail fits
    have read := ofBytes?_eq_some_iff.mpr ⟨fits, tail, rfl⟩
    exact ⟨read, by rw [decode, read, Option.map_some]⟩

/-- The identifier of the administrators has a binary form, from which it is read back whatever
follows. -/
theorem buffers_are_read_as_they_claim_of_administrators :
    Fits ⟨1, 5, [32, 544]⟩ ∧ ∀ tail, decode (bytes ⟨1, 5, [32, 544]⟩ ++ tail) =
      some "S-1-5-32-544" := by
  have fits : Fits ⟨1, 5, [32, 544]⟩ :=
    { revision := by decide
      authority := by decide
      count := by decide
      subAuthorities := by decide }
  obtain ⟨-, -, -, readBack, -⟩ := buffers_are_read_as_they_claim
  exact ⟨fits, fun tail => (readBack _ tail fits).2⟩

end SpnegoRealm.Sid
