import Mathlib.Data.List.Basic
import SpnegoRealm.Base64
import SpnegoRealm.Proofs.Except
import SpnegoRealm.Proofs.Text.ByteOrder

/-! # Base 64 read and written

Every three bytes are four sextets, and the bits that padding leaves over are zero. So reading
accepts what is written for some bytes and nothing else: a text is base 64 of `bytes` if and only
if it is `SpnegoRealm.Base64.encode bytes` (`SpnegoRealm.Base64.decode_eq_ok_iff`). What is written
has visible ASCII characters only.
-/

namespace SpnegoRealm.Base64

/-! ## Symbols -/

/-- The byte of the symbol for six bits. -/
def symbolByte (sextet : Nat) : UInt8 := (symbol sextet).toUInt8

private theorem sextet?_symbolByte {sextet : Nat} (six : sextet < 64) :
    sextet? (symbolByte sextet) = some sextet := by
  revert sextet
  decide

private theorem of_sextet?_eq_some {byte : UInt8} {sextet : Nat}
    (read : sextet? byte = some sextet) :
    sextet < 64 ∧ byte = symbolByte sextet := by
  have table : ∀ code < 256, ∀ sextet ∈ sextet? (UInt8.ofNat code),
      sextet < 64 ∧ UInt8.ofNat code = symbolByte sextet := by decide +kernel
  have entry := table byte.toNat byte.toNat_lt sextet
  rw [UInt8.ofNat_toNat] at entry
  exact entry read

private theorem symbolByte_ne_pad {sextet : Nat} (six : sextet < 64) : symbolByte sextet ≠ pad := by
  intro padding
  have read := sextet?_symbolByte six
  rw [padding] at read
  cases read

/-- Symbols are visible ASCII characters. -/
theorem symbol_visible (sextet : Nat) :
    0x21 ≤ (symbol sextet).toNat ∧ (symbol sextet).toNat < 0x7F := by
  by_cases six : sextet < 64
  · revert sextet
    decide
  · have slash : symbol sextet = '/' := by
      unfold symbol
      rw [if_neg (by omega), if_neg (by omega), if_neg (by omega), if_neg (by omega)]
    rw [slash]
    decide

private theorem sextetAt_eq_ok_iff {offset sextet : Nat} {byte : UInt8} :
    sextetAt offset byte = .ok sextet ↔ sextet < 64 ∧ byte = symbolByte sextet := by
  unfold sextetAt
  constructor
  · intro read
    split at read
    next found =>
      obtain rfl := Except.ok.inj read
      exact of_sextet?_eq_some found
    next => cases read
  · rintro ⟨six, rfl⟩
    rw [sextet?_symbolByte six]

private theorem byteOf_toNat {value : Nat} {byte : UInt8} (same : value = byte.toNat) :
    byteOf value = byte := by
  rw [same, byteOf, UInt8.ofNat_toNat]

private theorem toNat_byteOf {value : Nat} (small : value < 256) : (byteOf value).toNat = value :=
  UInt8.toNat_ofNat_of_lt' small

/-! ## What is written -/

/-- The bytes of the symbols for some bytes. -/
def written (bytes : Bytes) : Bytes := (encodeChars bytes).map Char.toUInt8

private theorem length_written (bytes : Bytes) :
    (written bytes).length = (bytes.length + 2) / 3 * 4 := by
  unfold written
  rw [List.length_map]
  fun_induction encodeChars bytes with
  | case1 => rfl
  | case2 a => simp
  | case3 a b => simp
  | case4 a b c rest ih =>
      simp only [List.length_cons, ih]
      omega

/-- What is written has visible ASCII characters only. -/
theorem visible_of_mem_encodeChars {c : Char} {bytes : Bytes} (member : c ∈ encodeChars bytes) :
    0x21 ≤ c.toNat ∧ c.toNat < 0x7F := by
  fun_induction encodeChars bytes with
  | case1 => cases member
  | case2 a =>
      simp only [List.mem_cons, List.not_mem_nil, or_false] at member
      rcases member with rfl | rfl | rfl | rfl
      · exact symbol_visible _
      · exact symbol_visible _
      · decide
      · decide
  | case3 a b =>
      simp only [List.mem_cons, List.not_mem_nil, or_false] at member
      rcases member with rfl | rfl | rfl | rfl
      · exact symbol_visible _
      · exact symbol_visible _
      · exact symbol_visible _
      · decide
  | case4 a b c rest ih =>
      simp only [List.mem_cons] at member
      rcases member with rfl | rfl | rfl | rfl | later
      · exact symbol_visible _
      · exact symbol_visible _
      · exact symbol_visible _
      · exact symbol_visible _
      · exact ih later

private theorem utf8_encode (bytes : Bytes) : Text.utf8 (encode bytes) = written bytes := by
  rw [Text.utf8_eq_flatMap, encode, String.toList_ofList]
  apply Text.flatMap_utf8EncodeChar_of_ascii
  intro c member
  have visible := visible_of_mem_encodeChars member
  omega

/-! ## The last quad -/

/-- The symbols of a list of sextets, each with its six bits. -/
def symbolsOf (sextets : List Nat) : List (UInt8 × Nat) :=
  sextets.map fun sextet => (symbolByte sextet, sextet)

/-- Symbols with padding behind them. -/
def padded (sextets : List Nat) (padding : Nat) : Bytes :=
  sextets.map symbolByte ++ List.replicate padding pad

private theorem tailSymbols_padded (offset place : Nat) (sextets : List Nat) (padding : Nat)
    (six : ∀ sextet ∈ sextets, sextet < 64) (late : padding = 0 ∨ 2 ≤ place + sextets.length) :
    tailSymbols offset place (padded sextets padding) = .ok (symbolsOf sextets, padding) := by
  induction sextets generalizing place with
  | nil =>
      cases padding with
      | zero => rfl
      | succ padding =>
          have third : ¬ place < 2 := by
            simp only [List.length_nil, Nat.add_zero] at late
            omega
          simp [padded, symbolsOf, List.replicate_succ, tailSymbols, third]
  | cons sextet rest ih =>
      have small : sextet < 64 := six sextet List.mem_cons_self
      have tail : tailSymbols offset (place + 1) (padded rest padding) =
          .ok (symbolsOf rest, padding) := by
        apply ih
        · intro other member
          exact six other (List.mem_cons_of_mem _ member)
        · rw [List.length_cons] at late
          omega
      have read : sextetAt (offset + place) (symbolByte sextet) = .ok sextet :=
        sextetAt_eq_ok_iff.mpr ⟨small, rfl⟩
      change tailSymbols offset place (symbolByte sextet :: padded rest padding) = _
      rw [tailSymbols, if_neg (symbolByte_ne_pad small), read, tail]
      rfl

private theorem of_tailSymbols_eq_ok {offset place padding : Nat} {tail : Bytes}
    {symbols : List (UInt8 × Nat)} (read : tailSymbols offset place tail = .ok (symbols, padding)) :
    ∃ sextets, (∀ sextet ∈ sextets, sextet < 64) ∧ symbols = symbolsOf sextets ∧
      tail = padded sextets padding := by
  induction tail generalizing place symbols padding with
  | nil =>
      obtain ⟨rfl, rfl⟩ := Prod.mk.inj (Except.ok.inj read)
      exact ⟨[], by simp, rfl, rfl⟩
  | cons byte rest ih =>
      unfold tailSymbols at read
      by_cases ends : byte = pad
      · rw [if_pos ends] at read
        split_ifs at read with early only
        obtain ⟨rfl, rfl⟩ := Prod.mk.inj (Except.ok.inj read)
        refine ⟨[], by simp, rfl, ?_⟩
        have pads : rest = List.replicate rest.length pad := by
          apply List.eq_replicate_of_mem
          intro other member
          exact of_decide_eq_true (List.all_eq_true.mp only other member)
        rw [ends, padded, List.map_nil, List.nil_append, List.replicate_succ, ← pads]
      · rw [if_neg ends] at read
        obtain ⟨sextet, here, read⟩ := bind_eq_ok_iff.mp read
        obtain ⟨⟨others, behind⟩, later, read⟩ := bind_eq_ok_iff.mp read
        obtain ⟨rfl, rfl⟩ := Prod.mk.inj (Except.ok.inj read)
        obtain ⟨small, rfl⟩ := sextetAt_eq_ok_iff.mp here
        obtain ⟨sextets, six, rfl, rfl⟩ := ih later
        refine ⟨sextet :: sextets, ?_, rfl, rfl⟩
        intro other member
        rcases List.mem_cons.mp member with rfl | member
        · exact small
        · exact six other member

/-- A last quad, and the bytes that it stands for. The bits that the padding leaves over are
zero. -/
inductive LastQuad : Bytes → Bytes → Prop
  | one {a b : Nat} (six : ∀ sextet ∈ [a, b], sextet < 64) (clear : b % 16 = 0) :
    LastQuad (padded [a, b] 2) [byteOf (a * 4 + b / 16)]
  | two {a b c : Nat} (six : ∀ sextet ∈ [a, b, c], sextet < 64) (clear : c % 4 = 0) :
    LastQuad (padded [a, b, c] 1) [byteOf (a * 4 + b / 16), byteOf (b % 16 * 16 + c / 4)]
  | three {a b c d : Nat} (six : ∀ sextet ∈ [a, b, c, d], sextet < 64) :
    LastQuad (padded [a, b, c, d] 0)
      [byteOf (a * 4 + b / 16), byteOf (b % 16 * 16 + c / 4), byteOf (c % 4 * 64 + d)]

private theorem decodeTail_of_lastQuad {tail bytes : Bytes} (offset : Nat)
    (quad : LastQuad tail bytes) :
    decodeTail offset tail = .ok bytes := by
  cases quad with
  | @one a b six clear =>
      have read := tailSymbols_padded offset 0 [a, b] 2 six (by simp)
      refine bind_eq_ok_iff.mpr ⟨_, read, ?_⟩
      simp only [symbolsOf, List.map_cons, List.map_nil, clear, ne_eq, not_true_eq_false,
        ↓reduceIte]
      rfl
  | @two a b c six clear =>
      have read := tailSymbols_padded offset 0 [a, b, c] 1 six (by simp)
      refine bind_eq_ok_iff.mpr ⟨_, read, ?_⟩
      simp only [symbolsOf, List.map_cons, List.map_nil, clear, ne_eq, not_true_eq_false,
        ↓reduceIte]
      rfl
  | @three a b c d six =>
      have read := tailSymbols_padded offset 0 [a, b, c, d] 0 six (by simp)
      exact bind_eq_ok_iff.mpr ⟨_, read, rfl⟩

private theorem of_decodeTail_eq_ok {offset : Nat} {tail bytes : Bytes} (short : tail.length ≤ 4)
    (read : decodeTail offset tail = .ok bytes) :
    offset = 0 ∧ tail = [] ∧ bytes = [] ∨ LastQuad tail bytes := by
  obtain ⟨⟨symbols, padding⟩, tailed, read⟩ := bind_eq_ok_iff.mp read
  obtain ⟨sextets, six, rfl, rfl⟩ := of_tailSymbols_eq_ok tailed
  match sextets, six with
  | [], _ =>
      simp only [symbolsOf, List.map_nil] at read
      split_ifs at read with empty
      obtain rfl := Except.ok.inj read
      exact Or.inl ⟨empty.1, empty.2, rfl⟩
  | [_], _ => cases read
  | [a, b], six =>
      simp only [symbolsOf, List.map_cons, List.map_nil] at read
      split_ifs at read with padding clear
      obtain rfl := Except.ok.inj read
      obtain rfl := not_not.mp padding
      exact Or.inr (.one six (not_not.mp clear))
  | [a, b, c], six =>
      simp only [symbolsOf, List.map_cons, List.map_nil] at read
      split_ifs at read with padding clear
      obtain rfl := Except.ok.inj read
      obtain rfl := not_not.mp padding
      exact Or.inr (.two six (not_not.mp clear))
  | a :: b :: c :: d :: more, six =>
      obtain rfl := Except.ok.inj read
      simp only [padded, List.length_append, List.length_map, List.length_cons,
        List.length_replicate] at short
      obtain rfl : more = [] := List.length_eq_zero_iff.mp (by omega)
      obtain rfl : padding = 0 := by omega
      exact Or.inr (.three six)

/-! ## Sextets and bytes -/

private theorem written_cons_three {a b c d : Nat} (six : ∀ sextet ∈ [a, b, c, d], sextet < 64)
    (rest : Bytes) :
    written (byteOf (a * 4 + b / 16) :: byteOf (b % 16 * 16 + c / 4) ::
        byteOf (c % 4 * 64 + d) :: rest) =
      symbolByte a :: symbolByte b :: symbolByte c :: symbolByte d :: written rest := by
  simp only [List.forall_mem_cons] at six
  have first := toNat_byteOf (show a * 4 + b / 16 < 256 by omega)
  have second := toNat_byteOf (show b % 16 * 16 + c / 4 < 256 by omega)
  have third := toNat_byteOf (show c % 4 * 64 + d < 256 by omega)
  have outer : (a * 4 + b / 16) / 4 = a := by omega
  have left : (a * 4 + b / 16) % 4 * 16 + (b % 16 * 16 + c / 4) / 16 = b := by omega
  have right : (b % 16 * 16 + c / 4) % 16 * 4 + (c % 4 * 64 + d) / 64 = c := by omega
  have inner : (c % 4 * 64 + d) % 64 = d := by omega
  change symbolByte _ :: symbolByte _ :: symbolByte _ :: symbolByte _ :: written rest = _
  rw [first, second, third, outer, left, right, inner]

private theorem written_two {a b c : Nat} (six : ∀ sextet ∈ [a, b, c], sextet < 64)
    (clear : c % 4 = 0) :
    written [byteOf (a * 4 + b / 16), byteOf (b % 16 * 16 + c / 4)] = padded [a, b, c] 1 := by
  simp only [List.forall_mem_cons] at six
  have first := toNat_byteOf (show a * 4 + b / 16 < 256 by omega)
  have second := toNat_byteOf (show b % 16 * 16 + c / 4 < 256 by omega)
  have outer : (a * 4 + b / 16) / 4 = a := by omega
  have left : (a * 4 + b / 16) % 4 * 16 + (b % 16 * 16 + c / 4) / 16 = b := by omega
  have right : (b % 16 * 16 + c / 4) % 16 * 4 = c := by omega
  change [symbolByte _, symbolByte _, symbolByte _, pad] = _
  rw [first, second, outer, left, right]
  rfl

private theorem written_one {a b : Nat} (six : ∀ sextet ∈ [a, b], sextet < 64)
    (clear : b % 16 = 0) :
    written [byteOf (a * 4 + b / 16)] = padded [a, b] 2 := by
  simp only [List.forall_mem_cons] at six
  have first := toNat_byteOf (show a * 4 + b / 16 < 256 by omega)
  have outer : (a * 4 + b / 16) / 4 = a := by omega
  have left : (a * 4 + b / 16) % 4 * 16 = b := by omega
  change [symbolByte _, symbolByte _, pad, pad] = _
  rw [first, outer, left]
  rfl

private theorem exists_sextets_of_three (first second third : UInt8) :
    ∃ a b c d, (∀ sextet ∈ [a, b, c, d], sextet < 64) ∧ first = byteOf (a * 4 + b / 16) ∧
      second = byteOf (b % 16 * 16 + c / 4) ∧ third = byteOf (c % 4 * 64 + d) := by
  have := first.toNat_lt
  have := second.toNat_lt
  have := third.toNat_lt
  refine ⟨first.toNat / 4, first.toNat % 4 * 16 + second.toNat / 16,
    second.toNat % 16 * 4 + third.toNat / 64, third.toNat % 64, ?_, ?_, ?_, ?_⟩
  · simp only [List.forall_mem_cons, List.not_mem_nil, false_implies, implies_true, and_true]
    omega
  · exact (byteOf_toNat (by omega)).symm
  · exact (byteOf_toNat (by omega)).symm
  · exact (byteOf_toNat (by omega)).symm

private theorem exists_sextets_of_two (first second : UInt8) :
    ∃ a b c, (∀ sextet ∈ [a, b, c], sextet < 64) ∧ c % 4 = 0 ∧
      first = byteOf (a * 4 + b / 16) ∧ second = byteOf (b % 16 * 16 + c / 4) := by
  have := first.toNat_lt
  have := second.toNat_lt
  refine ⟨first.toNat / 4, first.toNat % 4 * 16 + second.toNat / 16, second.toNat % 16 * 4,
    ?_, by omega, ?_, ?_⟩
  · simp only [List.forall_mem_cons, List.not_mem_nil, false_implies, implies_true, and_true]
    omega
  · exact (byteOf_toNat (by omega)).symm
  · exact (byteOf_toNat (by omega)).symm

private theorem exists_sextets_of_one (byte : UInt8) :
    ∃ a b, (∀ sextet ∈ [a, b], sextet < 64) ∧ b % 16 = 0 ∧ byte = byteOf (a * 4 + b / 16) := by
  have := byte.toNat_lt
  refine ⟨byte.toNat / 4, byte.toNat % 4 * 16, ?_, by omega, ?_⟩
  · simp only [List.forall_mem_cons, List.not_mem_nil, false_implies, implies_true, and_true]
    omega
  · exact (byteOf_toNat (by omega)).symm

/-- A last quad is what is written for one, two or three bytes. -/
theorem lastQuad_iff {tail bytes : Bytes} :
    LastQuad tail bytes ↔ bytes ≠ [] ∧ bytes.length ≤ 3 ∧ tail = written bytes := by
  constructor
  · intro quad
    cases quad with
    | one six clear => exact ⟨by simp, by simp, (written_one six clear).symm⟩
    | two six clear => exact ⟨by simp, by simp, (written_two six clear).symm⟩
    | three six => exact ⟨by simp, by simp, (written_cons_three six []).symm⟩
  · rintro ⟨filled, short, rfl⟩
    match bytes, filled, short with
    | [first], _, _ =>
        obtain ⟨a, b, six, clear, rfl⟩ := exists_sextets_of_one first
        rw [written_one six clear]
        exact .one six clear
    | [first, second], _, _ =>
        obtain ⟨a, b, c, six, clear, rfl, rfl⟩ := exists_sextets_of_two first second
        rw [written_two six clear]
        exact .two six clear
    | [first, second, third], _, _ =>
        obtain ⟨a, b, c, d, six, rfl, rfl, rfl⟩ := exists_sextets_of_three first second third
        rw [written_cons_three six []]
        exact .three six

/-! ## Reading what is written -/

/-- The end of a text is read if and only if it is a last quad, or there is nothing at all. -/
theorem decodeTail_eq_ok_iff {offset : Nat} {tail bytes : Bytes} (short : tail.length ≤ 4) :
    decodeTail offset tail = .ok bytes ↔
      offset = 0 ∧ tail = [] ∧ bytes = [] ∨ LastQuad tail bytes := by
  constructor
  · exact of_decodeTail_eq_ok short
  · rintro (⟨rfl, rfl, rfl⟩ | quad)
    · rfl
    · exact decodeTail_of_lastQuad offset quad

/-- Behind some quads, symbols are read if and only if they are written for some bytes. -/
theorem decodeFrom_eq_ok_iff {offset : Nat} {symbols bytes : Bytes} :
    decodeFrom offset symbols = .ok bytes ↔
      offset = 0 ∧ symbols = [] ∧ bytes = [] ∨ bytes ≠ [] ∧ symbols = written bytes := by
  fun_induction decodeFrom offset symbols generalizing bytes with
  | case1 offset first second third fourth fifth rest ih =>
      simp only [bind_eq_ok_iff, sextetAt_eq_ok_iff, ih]
      constructor
      · rintro ⟨a, ⟨sixA, rfl⟩, b, ⟨sixB, rfl⟩, c, ⟨sixC, rfl⟩, d, ⟨sixD, rfl⟩, decoded,
          ⟨beyond, _⟩ | ⟨_, later⟩, read⟩
        · omega
        · obtain rfl := Except.ok.inj read
          refine Or.inr ⟨by simp, ?_⟩
          rw [later, written_cons_three (by simp [sixA, sixB, sixC, sixD])]
      · rintro (⟨_, impossible, _⟩ | ⟨filled, same⟩)
        · cases impossible
        · have long := congrArg List.length same
          rw [length_written] at long
          simp only [List.length_cons] at long
          match bytes, filled with
          | [_], _ => simp at long
          | [_, _], _ => simp at long
          | [_, _, _], _ => simp at long
          | x :: y :: z :: more :: others, _ =>
              obtain ⟨a, b, c, d, six, rfl, rfl, rfl⟩ := exists_sextets_of_three x y z
              rw [written_cons_three six] at same
              simp only [List.cons.injEq] at same
              obtain ⟨rfl, rfl, rfl, rfl, later⟩ := same
              simp only [List.forall_mem_cons] at six
              exact ⟨a, ⟨six.1, rfl⟩, b, ⟨six.2.1, rfl⟩, c, ⟨six.2.2.1, rfl⟩, d,
                ⟨six.2.2.2.1, rfl⟩, more :: others, Or.inr ⟨by simp, later⟩, rfl⟩
  | case2 offset tail other =>
      have short : tail.length ≤ 4 := by
        match tail, other with
        | [], _ | [_], _ | [_, _], _ | [_, _, _], _ | [_, _, _, _], _ => simp
        | first :: second :: third :: fourth :: fifth :: rest, other =>
            exact (other first second third fourth fifth rest rfl).elim
      rw [decodeTail_eq_ok_iff short, lastQuad_iff]
      refine or_congr_right (and_congr_right fun _ => ?_)
      constructor
      · rintro ⟨_, same⟩
        exact same
      · intro same
        have long := congrArg List.length same
        rw [length_written] at long
        exact ⟨by omega, same⟩

/-- **Base 64 is canonical.** Reading accepts what is written for some bytes, and nothing else. -/
theorem decode_eq_ok_iff {symbols bytes : Bytes} :
    decode symbols = .ok bytes ↔ symbols = Text.utf8 (encode bytes) := by
  rw [utf8_encode]
  cases last : symbols.getLast? with
  | none =>
      obtain rfl := List.getLast?_eq_none_iff.mp last
      simp only [decode, List.getLast?_nil, Except.ok.injEq]
      constructor
      · rintro rfl
        rfl
      · intro same
        have short := congrArg List.length same
        rw [length_written, List.length_nil] at short
        exact (List.length_eq_zero_iff.mp (by omega)).symm
  | some byte =>
      have filled : symbols ≠ [] := by
        rintro rfl
        cases last
      have left : bytes = [] → symbols ≠ written bytes := by
        rintro rfl
        exact filled
      simp only [decode, last]
      split_ifs with odd
      · simp only [false_iff]
        rintro rfl
        rw [length_written] at odd
        omega
      · simp only [decodeFrom_eq_ok_iff, filled, false_and, and_false, false_or]
        constructor
        · rintro ⟨_, same⟩
          exact same
        · intro same
          exact ⟨fun empty => left empty same, same⟩

/-- What is written is read back. -/
theorem decode_encode (bytes : Bytes) : decode (Text.utf8 (encode bytes)) = .ok bytes :=
  decode_eq_ok_iff.mpr rfl

/-- Different bytes are written as different texts. -/
theorem encode_injective : Function.Injective encode := by
  intro first second same
  have read := decode_encode first
  rw [same, decode_encode second] at read
  exact (Except.ok.inj read).symm

end SpnegoRealm.Base64
