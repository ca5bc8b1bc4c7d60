import Mathlib.Data.String.Basic
import SpnegoRealm.Negotiation.Header
import SpnegoRealm.Proofs.Base64
import SpnegoRealm.Proofs.Text.Blank
import SpnegoRealm.Proofs.Text.Casing

/-! # What a credential header says

A credential header consists of the word `negotiate` in any case of its letters, one blank and the
base 64 of a token that is not empty; further blanks may stand before the word and on both sides of
the token (`SpnegoRealm.Negotiation.Credential`). Reading accepts these headers and no others
(`SpnegoRealm.Negotiation.readHeader_eq_ok_iff`).

The scheme may as well be cut off at its tenth byte: the header is read alike
(`SpnegoRealm.Negotiation.readByBytes_eq_readHeader`), and where the tenth byte lies inside of a
character the header has no scheme.
-/

namespace SpnegoRealm

namespace Text

/-! ## Cutting a text at a byte -/

/-- The two parts of a text around a byte. There is no such cut where the byte lies beyond the end
of the text or inside of a character. -/
def cutAt? (text : String) (offset : Nat) : Option (String × String) :=
  if boundary : String.Pos.Raw.IsValid text ⟨offset⟩ then
    some ((text.sliceTo ⟨⟨offset⟩, boundary⟩).copy, (text.sliceFrom ⟨⟨offset⟩, boundary⟩).copy)
  else
    none

private theorem cutAt?_eq_some_iff {text first second : String} {offset : Nat} :
    cutAt? text offset = some (first, second) ↔
      text = first ++ second ∧ first.utf8ByteSize = offset := by
  unfold cutAt?
  constructor
  · intro cut
    by_cases boundary : String.Pos.Raw.IsValid text ⟨offset⟩
    · rw [dif_pos boundary] at cut
      obtain ⟨rfl, rfl⟩ := Prod.mk.inj (Option.some.inj cut)
      have splits := String.Pos.splits (⟨⟨offset⟩, boundary⟩ : text.Pos)
      exact ⟨splits.eq_append, (congrArg String.Pos.Raw.byteIdx splits.offset_eq_rawEndPos).symm⟩
    · rw [dif_neg boundary] at cut
      cases cut
  · rintro ⟨rfl, rfl⟩
    have boundary : String.Pos.Raw.IsValid (first ++ second) ⟨first.utf8ByteSize⟩ :=
      String.Pos.Raw.isValid_iff_exists_append.mpr ⟨first, second, rfl, rfl⟩
    have splits := String.Pos.splits (⟨⟨first.utf8ByteSize⟩, boundary⟩ : (first ++ second).Pos)
    have same := splits.eq ⟨rfl, rfl⟩
    rw [dif_pos boundary, same.1, same.2]

private theorem utf8Size_toLower (c : Char) : c.toLower.utf8Size = c.utf8Size := by
  by_cases ascii : c.toNat < 0x80
  · have single : c.utf8Size = 1 := Char.utf8Size_eq_one_iff.mpr (Nat.le_of_lt_succ ascii)
    rw [single]
    exact Char.utf8Size_eq_one_iff.mpr (Nat.le_of_lt_succ (toLower_ascii_iff.mpr ascii))
  · rw [toLower_of_not_ascii (Nat.le_of_not_lt ascii)]

private theorem utf8Len_map_toLower (characters : List Char) :
    String.utf8Len (characters.map Char.toLower) = String.utf8Len characters := by
  induction characters with
  | nil => rfl
  | cons c rest ih =>
      rw [List.map_cons, String.utf8Len_cons, String.utf8Len_cons, ih, utf8Size_toLower]

/-- Texts that agree up to the case of ASCII letters have the same number of bytes. -/
theorem utf8ByteSize_of_eqIgnoringAsciiCase {left right : String}
    (same : eqIgnoringAsciiCase left right = true) : left.utf8ByteSize = right.utf8ByteSize := by
  have lengths := congrArg String.utf8Len (eqIgnoringAsciiCase_iff.mp same)
  rw [utf8Len_map_toLower, utf8Len_map_toLower] at lengths
  rwa [← String.utf8ByteSize_ofList, ← String.utf8ByteSize_ofList, String.ofList_toList,
    String.ofList_toList] at lengths

end Text

namespace Negotiation

open Text

/-! ## Credentials -/

/-- A header that presents a token. -/
inductive Credential : String → Bytes → Prop
  | presented {before scheme gap after : String} {token : Bytes}
    (blankBefore : isBlankText before = true)
    (named : eqIgnoringAsciiCase scheme "negotiate" = true)
    (blankGap : isBlankText gap = true) (filled : token ≠ [])
    (blankAfter : isBlankText after = true) :
    Credential (before ++ scheme ++ " " ++ gap ++ Base64.encode token ++ after) token

variable {header : String} {token : Bytes} {characters payload : List Char}

/-- Something comes after the scheme if and only if the characters start with it, in any case of
its letters. -/
theorem afterScheme?_eq_some_iff :
    afterScheme? characters = some payload ↔ ∃ start : List Char,
      start.map Char.toLower = schemeStart ∧ characters = start ++ payload := by
  unfold afterScheme?
  constructor
  · intro found
    split at found
    next named =>
      obtain rfl := Option.some.inj found
      exact ⟨_, named, (List.take_append_drop _ characters).symm⟩
    next => cases found
  · rintro ⟨start, named, rfl⟩
    have length : start.length = schemeStart.length := by
      have lengths := congrArg List.length named
      rwa [List.length_map] at lengths
    rw [List.take_left' length, List.drop_left' length, if_pos named]

/-- The blank after the scheme stands for itself, and no other character does. -/
theorem map_toLower_eq_schemeStart_iff {start : List Char} :
    start.map Char.toLower = schemeStart ↔ ∃ scheme : List Char,
      scheme.map Char.toLower = "negotiate".toList ∧ start = scheme ++ [' '] := by
  have parts : schemeStart = "negotiate".toList ++ [' '] := by decide
  rw [parts, List.map_eq_append_iff]
  constructor
  · rintro ⟨scheme, last, rfl, named, blank⟩
    obtain ⟨c, rfl, lowers⟩ := List.map_eq_singleton_iff.mp blank
    obtain rfl := eq_of_toLower_eq lowers (Or.inl (by decide))
    exact ⟨scheme, named, rfl⟩
  · rintro ⟨scheme, named, rfl⟩
    exact ⟨scheme, [' '], rfl, named, rfl⟩

private theorem afterScheme?_eq_some_iff_scheme :
    afterScheme? characters = some payload ↔ ∃ scheme : List Char,
      scheme.map Char.toLower = "negotiate".toList ∧ characters = scheme ++ ' ' :: payload := by
  rw [afterScheme?_eq_some_iff]
  constructor
  · rintro ⟨start, named, rfl⟩
    obtain ⟨scheme, word, rfl⟩ := map_toLower_eq_schemeStart_iff.mp named
    exact ⟨scheme, word, by simp⟩
  · rintro ⟨scheme, word, rfl⟩
    exact ⟨scheme ++ [' '], map_toLower_eq_schemeStart_iff.mpr ⟨scheme, word, rfl⟩, by simp⟩

/-- A header has a last character, which is not blank, so something follows its scheme. -/
theorem trimChars_payload_ne_nil
    (found : afterScheme? (trimChars isBlank characters) = some payload) :
    trimChars isBlank payload ≠ [] := by
  intro empty
  obtain ⟨scheme, _, same⟩ := afterScheme?_eq_some_iff_scheme.mp found
  have blank : ∀ c ∈ ' ' :: payload, isBlank c = true := by
    intro c member
    rcases List.mem_cons.mp member with rfl | later
    · rfl
    · exact trimChars_eq_nil_iff.mp empty c later
  have last := (tight_trimChars isBlank characters).last ((' ' :: payload).getLast (by simp))
  rw [same, List.getLast?_append_of_ne_nil _ (by simp),
    List.getLast?_eq_getLast_of_ne_nil (by simp), blank _ (List.getLast_mem _)] at last
  cases last rfl

/-- A header without the scheme is refused for that. -/
theorem readHeader_of_no_scheme (missing : afterScheme? (trimChars isBlank header.toList) = none) :
    readHeader header = .error .noScheme := by
  unfold readHeader
  rw [missing]

private theorem readHeader_of_afterScheme?
    (found : afterScheme? (trimChars isBlank header.toList) = some payload) :
    readHeader header =
      (Base64.decode (utf8 (String.ofList (trimChars isBlank payload)))).mapError .notBase64 := by
  have filled := trimChars_payload_ne_nil found
  unfold readHeader
  rw [found]
  simp only [List.isEmpty_iff, filled, ↓reduceIte]

/-- No header is refused for an empty token: without any payload, the blank of the scheme is
trimmed away. -/
theorem readHeader_ne_emptyToken (header : String) : readHeader header ≠ .error .emptyToken := by
  intro failed
  cases found : afterScheme? (trimChars isBlank header.toList) with
  | none =>
      rw [readHeader_of_no_scheme found] at failed
      cases failed
  | some payload =>
      rw [readHeader_of_afterScheme? found, mapError_eq_error_iff] at failed
      obtain ⟨_, _, impossible⟩ := failed
      cases impossible

private theorem Credential.of_readHeader (read : readHeader header = .ok token) :
    Credential header token := by
  cases found : afterScheme? (trimChars isBlank header.toList) with
  | none =>
      rw [readHeader_of_no_scheme found] at read
      cases read
  | some payload =>
      rw [readHeader_of_afterScheme? found, mapError_eq_ok_iff, Base64.decode_eq_ok_iff] at read
      have encoded : trimChars isBlank payload = Base64.encodeChars token :=
        String.ofList_inj.mp (utf8_injective read)
      obtain ⟨scheme, named, start⟩ := afterScheme?_eq_some_iff_scheme.mp found
      obtain ⟨_, before, after, blankBefore, blankAfter, whole⟩ := trimChars_eq_iff.mp start
      obtain ⟨_, gap, rest, blankGap, blankRest, inner⟩ := trimChars_eq_iff.mp encoded
      have filled : token ≠ [] := by
        rintro rfl
        exact trimChars_payload_ne_nil found encoded
      have parts : header = String.ofList before ++ String.ofList scheme ++ " " ++
          String.ofList gap ++ Base64.encode token ++ String.ofList (rest ++ after) := by
        apply String.toList_inj.mp
        rw [whole, inner]
        simp [Base64.encode]
      rw [parts]
      refine .presented ?_ ?_ ?_ filled ?_
      · rwa [isBlankText_iff, String.toList_ofList]
      · rwa [eqIgnoringAsciiCase_iff, String.toList_ofList]
      · rwa [isBlankText_iff, String.toList_ofList]
      · rw [isBlankText_iff, String.toList_ofList]
        intro c member
        rcases List.mem_append.mp member with early | late
        · exact blankRest c early
        · exact blankAfter c late

private theorem isBlank_of_mem_encodeChars {c : Char} (member : c ∈ Base64.encodeChars token) :
    isBlank c = false := by
  obtain ⟨above, below⟩ := Base64.visible_of_mem_encodeChars member
  exact isBlank_of_visible above below

/-- The blanks around a token come off, since the symbols of base 64 are visible. -/
theorem trimChars_append_encodeChars {gap : List Char} (blank : ∀ c ∈ gap, isBlank c = true) :
    trimChars isBlank (gap ++ Base64.encodeChars token) = Base64.encodeChars token := by
  apply trimChars_eq_iff.mpr
  refine ⟨⟨?_, ?_⟩, gap, [], blank, by simp, by simp⟩
  · intro c first
    exact isBlank_of_mem_encodeChars (List.mem_of_head? first)
  · intro c last
    exact isBlank_of_mem_encodeChars (List.mem_of_getLast? last)

private theorem encodeChars_ne_nil (filled : token ≠ []) : Base64.encodeChars token ≠ [] := by
  intro empty
  refine filled (Base64.encode_injective ?_)
  unfold Base64.encode
  rw [empty]
  rfl

/-- A scheme starts with a letter. -/
theorem isBlank_head_of_scheme {scheme rest : List Char}
    (word : scheme.map Char.toLower = "negotiate".toList) :
    ∀ c ∈ (scheme ++ rest).head?, isBlank c = false := by
  intro c first
  cases scheme with
  | nil => cases word
  | cons letter others =>
      obtain rfl : letter = c := Option.some.inj first
      have lowers : letter.toLower = 'n' := (List.cons.inj word).1
      rw [← isBlank_toLower, lowers]
      decide

/-- A token that is not empty ends with a symbol. -/
theorem isBlank_getLast_of_token {start : List Char} (filled : token ≠ []) :
    ∀ c ∈ (start ++ Base64.encodeChars token).getLast?, isBlank c = false := by
  intro c last
  rw [List.getLast?_append_of_ne_nil _ (encodeChars_ne_nil filled)] at last
  exact isBlank_of_mem_encodeChars (List.mem_of_getLast? last)

private theorem trimChars_of_presented {before scheme gap after : String}
    (blankBefore : isBlankText before = true)
    (named : eqIgnoringAsciiCase scheme "negotiate" = true) (filled : token ≠ [])
    (blankAfter : isBlankText after = true) :
    trimChars isBlank (before ++ scheme ++ " " ++ gap ++ Base64.encode token ++ after).toList =
      scheme.toList ++ ' ' :: (gap.toList ++ Base64.encodeChars token) := by
  rw [isBlankText_iff] at blankBefore blankAfter
  apply trimChars_eq_iff.mpr
  refine ⟨⟨?first, ?last⟩, before.toList, after.toList, blankBefore, blankAfter, ?whole⟩
  case first => exact isBlank_head_of_scheme (eqIgnoringAsciiCase_iff.mp named)
  case last =>
    have parts : scheme.toList ++ ' ' :: (gap.toList ++ Base64.encodeChars token) =
        (scheme.toList ++ ' ' :: gap.toList) ++ Base64.encodeChars token := by simp
    rw [parts]
    exact isBlank_getLast_of_token filled
  case whole => simp [Base64.encode]

/-- A header that presents a token is read to it. -/
theorem Credential.readHeader_eq (credential : Credential header token) :
    readHeader header = .ok token := by
  cases credential with
  | @presented before scheme gap after _ blankBefore named blankGap filled blankAfter =>
      have found : afterScheme? (trimChars isBlank
          (before ++ scheme ++ " " ++ gap ++ Base64.encode token ++ after).toList) =
            some (gap.toList ++ Base64.encodeChars token) := by
        rw [trimChars_of_presented blankBefore named filled blankAfter]
        exact afterScheme?_eq_some_iff_scheme.mpr
          ⟨scheme.toList, eqIgnoringAsciiCase_iff.mp named, rfl⟩
      rw [readHeader_of_afterScheme? found,
        trimChars_append_encodeChars (isBlankText_iff.mp blankGap)]
      exact mapError_eq_ok_iff.mpr (Base64.decode_encode token)

/-- **What a credential header says.** Reading accepts credentials, and nothing else. -/
theorem readHeader_eq_ok_iff : readHeader header = .ok token ↔ Credential header token :=
  ⟨.of_readHeader, Credential.readHeader_eq⟩

/-- A header decodes to the token that it presents. -/
theorem decodeHeader_eq_ok_iff : decodeHeader header = .ok token ↔ Credential header token := by
  unfold decodeHeader
  rw [mapError_eq_ok_iff, readHeader_eq_ok_iff]

/-- A header presents one token only. -/
theorem Credential.token_eq {other : Bytes} (credential : Credential header token)
    (again : Credential header other) : token = other :=
  Except.ok.inj (credential.readHeader_eq.symm.trans again.readHeader_eq)

/-! ## Reading by bytes -/

/-- What follows the first ten bytes of a text, if they are the scheme and its blank. -/
def afterSchemeBytes? (trimmed : String) : Option String :=
  (cutAt? trimmed 10).bind fun (scheme, payload) =>
    if eqIgnoringAsciiCase scheme "negotiate " then some payload else none

/-- Read the token of a credential header, with the scheme cut off at its tenth byte. -/
def readByBytes (header : String) : Except HeaderFault Bytes :=
  match (afterSchemeBytes? (trim header)).map trim with
  | none => .error .noScheme
  | some payload =>
    if payload = "" then .error .emptyToken
    else (Base64.decode (utf8 payload)).mapError .notBase64

/-- Cutting a text at the byte where the scheme ends finds what the characters say. -/
theorem afterSchemeBytes?_eq (text : String) :
    afterSchemeBytes? text = (afterScheme? text.toList).map String.ofList := by
  apply Option.ext
  intro payload
  simp only [afterSchemeBytes?, Option.bind_eq_some_iff, Prod.exists, cutAt?_eq_some_iff,
    Option.ite_none_right_eq_some, Option.some.injEq, Option.map_eq_some_iff,
    afterScheme?_eq_some_iff]
  constructor
  · rintro ⟨scheme, rest, ⟨rfl, _⟩, named, rfl⟩
    have word := eqIgnoringAsciiCase_iff.mp named
    exact ⟨rest.toList, ⟨scheme.toList, word, String.toList_append⟩, String.ofList_toList⟩
  · rintro ⟨rest, ⟨start, named, split⟩, rfl⟩
    have word : eqIgnoringAsciiCase (String.ofList start) "negotiate " = true := by
      rw [eqIgnoringAsciiCase_iff, String.toList_ofList]
      exact named
    have whole : text = String.ofList start ++ String.ofList rest := by
      rw [← String.ofList_append, ← split, String.ofList_toList]
    exact ⟨_, _, ⟨whole, utf8ByteSize_of_eqIgnoringAsciiCase word⟩, word, rfl⟩

/-- **The tenth byte.** A header is read alike when its scheme is cut off at the tenth byte. -/
theorem readByBytes_eq_readHeader (header : String) : readByBytes header = readHeader header := by
  unfold readByBytes
  rw [afterSchemeBytes?_eq, toList_trim]
  cases found : afterScheme? (trimChars isBlank header.toList) with
  | none =>
      rw [readHeader_of_no_scheme found]
      rfl
  | some payload =>
      have filled := trimChars_payload_ne_nil found
      have trimmed : trim (String.ofList payload) = String.ofList (trimChars isBlank payload) := by
        unfold trim trimBy
        rw [String.toList_ofList]
      have text : String.ofList (trimChars isBlank payload) ≠ "" := by
        intro empty
        exact filled (String.ofList_inj.mp empty)
      rw [readHeader_of_afterScheme? found]
      simp only [Option.map_some, trimmed, text, ↓reduceIte]

/-- Where the tenth byte starts no character, the header has no scheme. -/
theorem readHeader_of_not_isValid (inside : ¬ String.Pos.Raw.IsValid (trim header) ⟨10⟩) :
    readHeader header = .error .noScheme := by
  have uncut : cutAt? (trim header) 10 = none := dif_neg inside
  rw [← readByBytes_eq_readHeader]
  unfold readByBytes afterSchemeBytes?
  rw [uncut]
  rfl

/-! ## The main result -/

/-- **Credentials are read, and nothing else.** A header is decoded to a token if and only if it is
a credential for this token, and any other header is malformed; a header is a credential for one
token at most. Cutting the scheme off at the tenth byte gives the same answer for every header, also
where this byte does not start a character, and no header is refused for an empty token. -/
theorem credentials_are_read (header : String) :
    (∀ token, decodeHeader header = .ok token ↔ Credential header token) ∧
      ((∃ detail, decodeHeader header = .error (.malformedHeader detail)) ↔
        ∀ token, ¬ Credential header token) ∧
      (∀ token other, Credential header token → Credential header other → token = other) ∧
      readByBytes header = readHeader header ∧
      (¬ String.Pos.Raw.IsValid (trim header) ⟨10⟩ → readHeader header = .error .noScheme) ∧
      readHeader header ≠ .error .emptyToken := by
  refine ⟨fun _ => decodeHeader_eq_ok_iff, ?malformed, fun _ _ => Credential.token_eq,
    readByBytes_eq_readHeader header, readHeader_of_not_isValid, readHeader_ne_emptyToken header⟩
  case malformed =>
    constructor
    · rintro ⟨detail, failed⟩ token credential
      rw [decodeHeader_eq_ok_iff.mpr credential] at failed
      cases failed
    · intro none
      cases read : readHeader header with
      | error fault =>
          refine ⟨fault.message, ?_⟩
          unfold decodeHeader
          rw [read]
          rfl
      | ok token => exact (none token (readHeader_eq_ok_iff.mp read)).elim

example : decodeHeader "\u00a0nEgOtIaTe \t dA==\u3000" = .ok [0x74] := by decide +kernel

example : readHeader "negotiaté dA==" = .error .noScheme := by decide +kernel

end Negotiation

end SpnegoRealm
