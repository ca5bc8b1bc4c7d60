import SpnegoRealm.Negotiation.Outcome
import SpnegoRealm.Proofs.Negotiation.Header

/-! # What the headers of a response say

A token stands in both headers of a response. The challenge header holds it in base 64, and read as
a credential it gives the token back; the header for the token alone holds it as it is only where it
is plain text that may stand in a header (`SpnegoRealm.Token.outHeaderValue_eq_bytes_iff`). The
symbols of base 64 may always stand in a header, so no value is ever left empty for want of a text
(`SpnegoRealm.Token.textValue?_base64`, `SpnegoRealm.Token.textValue?_challenge`).
-/

namespace SpnegoRealm

namespace Token

/-! ## Values that are made of text -/

private theorem isTextByte_toUInt8 {c : Char} (above : 0x20 ≤ c.toNat) (below : c.toNat < 0x7F) :
    isTextByte c.toUInt8 = true := by
  have value : c.toUInt8.toNat = c.toNat := by
    change c.val.toUInt8.toNat = c.val.toNat
    rw [UInt32.toNat_toUInt8]
    exact Nat.mod_eq_of_lt (lt_trans below (by decide))
  simp only [isTextByte, Bool.or_eq_true, Bool.and_eq_true, decide_eq_true_eq,
    UInt8.le_iff_toNat_le, UInt8.lt_iff_toNat_lt, value]
  exact Or.inr ⟨above, below⟩

private theorem textValue?_of_ascii {text : String}
    (visible : ∀ c ∈ text.toList, 0x20 ≤ c.toNat ∧ c.toNat < 0x7F) :
    textValue? text = some (Text.utf8 text) := by
  have bytes : Text.utf8 text = text.toList.map Char.toUInt8 := by
    rw [Text.utf8_eq_flatMap]
    apply Text.flatMap_utf8EncodeChar_of_ascii
    intro c member
    have := visible c member
    omega
  refine if_pos ?_
  rw [bytes, List.all_map, List.all_eq_true]
  intro c member
  exact isTextByte_toUInt8 (visible c member).1 (visible c member).2

/-- A token in base 64 may stand in a header. -/
theorem textValue?_base64 (token : Token) :
    textValue? token.base64 = some (Text.utf8 token.base64) := by
  apply textValue?_of_ascii
  intro c member
  rw [base64, Base64.encode, String.toList_ofList] at member
  have := Base64.visible_of_mem_encodeChars member
  omega

/-- A challenge may stand in a header. -/
theorem textValue?_challenge (token : Token) :
    textValue? token.challenge = some (Text.utf8 token.challenge) := by
  apply textValue?_of_ascii
  intro c member
  rw [challenge, String.toList_append, base64, Base64.encode] at member
  rcases List.mem_append.mp member with word | symbol
  · have letters : ("Negotiate ".toList.all fun c => 0x20 ≤ c.toNat ∧ c.toNat < 0x7F) = true := by
      decide
    exact of_decide_eq_true (List.all_eq_true.mp letters c word)
  · rw [String.toList_ofList] at symbol
    have := Base64.visible_of_mem_encodeChars symbol
    omega

/-- A challenge is always sent as it is: its bytes can stand in a header. -/
theorem challengeValue_eq (token : Token) : token.challengeValue = Text.utf8 token.challenge := by
  unfold challengeValue encodedValue
  rw [textValue?_challenge]
  rfl

/-! ## The header for the token alone -/

variable {token : Token}

private theorem isHeaderByte_iff {byte : UInt8} :
    isHeaderByte byte = true ↔ byte.toNat = 9 ∨ 32 ≤ byte.toNat ∧ byte.toNat ≠ 127 := by
  simp only [isHeaderByte, Bool.or_eq_true, Bool.and_eq_true, decide_eq_true_eq, beq_iff_eq,
    bne_iff_ne, ne_eq, UInt8.le_iff_toNat_le, ← UInt8.toNat_inj]
  rfl

private theorem isHeaderByte_of_isTextByte {byte : UInt8} (text : isTextByte byte = true) :
    isHeaderByte byte = true := by
  rw [isHeaderByte_iff]
  simp only [isTextByte, Bool.or_eq_true, Bool.and_eq_true, decide_eq_true_eq, beq_iff_eq,
    UInt8.le_iff_toNat_le, UInt8.lt_iff_toNat_lt, ← UInt8.toNat_inj] at text
  change byte.toNat = 9 ∨ 32 ≤ byte.toNat ∧ byte.toNat < 127 at text
  omega

private theorem outHeaderValue_of_binary (binary : token.isPlainText = false) :
    token.outHeaderValue = Text.utf8 token.base64 := by
  unfold outHeaderValue encodedValue
  rw [binary, textValue?_base64]
  rfl

private theorem outHeaderValue_of_not_header {byte : UInt8} (member : byte ∈ token.bytes)
    (barred : isHeaderByte byte = false) : token.outHeaderValue = Text.utf8 token.base64 := by
  have refused : token.bytes.all isHeaderByte = false :=
    List.all_eq_false.mpr ⟨byte, member, Bool.eq_false_iff.mp barred⟩
  unfold outHeaderValue encodedValue
  rw [refused, Bool.and_false, textValue?_base64]
  rfl

/-- Plain text stands in its header as it is if and only if all of its bytes may stand there. -/
theorem outHeaderValue_eq_bytes_iff (plain : token.isPlainText = true) :
    token.outHeaderValue = token.bytes ↔ ∀ byte ∈ token.bytes, isHeaderByte byte = true := by
  constructor
  · intro same byte member
    by_contra barred
    rw [outHeaderValue_of_not_header member (Bool.eq_false_iff.mpr barred)] at same
    have fits := textValue?_base64 token
    unfold textValue? at fits
    by_cases text : (Text.utf8 token.base64).all isTextByte = true
    · rw [same] at text
      exact barred (isHeaderByte_of_isTextByte (List.all_eq_true.mp text byte member))
    · simp only [text] at fits
      cases fits
  · intro allowed
    unfold outHeaderValue
    rw [plain, List.all_eq_true.mpr allowed]
    rfl

end Token

namespace Negotiation

/-! ## Challenges read as credentials -/

/-- A challenge with a token is a credential for that token. -/
theorem credential_challenge {token : Token} (filled : token.bytes ≠ []) :
    Credential token.challenge token.bytes := by
  have presented : Credential ("" ++ "Negotiate" ++ " " ++ "" ++ token.base64 ++ "") token.bytes :=
    .presented (by decide) (by decide) (by decide) filled (by decide)
  have text : "" ++ "Negotiate" ++ " " ++ "" ++ token.base64 ++ "" = token.challenge := by
    apply String.toList_inj.mp
    simp [Token.challenge]
  rwa [text] at presented

private theorem readHeader_bare : readHeader "Negotiate" = .error .noScheme := by decide +kernel

/-- The bare challenge is a credential for no token. -/
theorem not_credential_bare (token : Bytes) : ¬ Credential "Negotiate" token := by
  intro credential
  have read := credential.readHeader_eq
  rw [readHeader_bare] at read
  cases read

end Negotiation

namespace Outcome

open Negotiation

private theorem responseHeaders_of_token {outcome : Outcome} {token : Token}
    (sends : outcome.token? = some token) :
    outcome.responseHeaders =
      [(tokenHeader, token.outHeaderValue), (challengeHeader, Text.utf8 token.challenge)] := by
  cases outcome with
  | absent => cases sends
  | pending other => simp only [responseHeaders, sends, Token.challengeValue_eq]
  | authenticated identity => simp only [responseHeaders, sends, Token.challengeValue_eq]

private theorem not_mem_responseHeaders {outcome : Outcome} (silent : outcome.token? = none)
    (value : Bytes) : (tokenHeader, value) ∉ outcome.responseHeaders := by
  cases outcome with
  | absent =>
      have other : tokenHeader ≠ challengeHeader := by decide
      simp [responseHeaders, other]
  | pending token => cases silent
  | authenticated identity => simp [responseHeaders, silent]

/-- **Tokens are sent as they are read.** An outcome with a token puts it into both headers. The
challenge, read as a credential, gives the bytes of the token back unless there are none; the other
header holds the base 64 of a binary token, which decodes to its bytes, and a plain text as it is if
and only if all of its bytes may stand in a header, else its base 64. Neither value is left empty
because its text makes no value. An outcome without a token does not set the header for it, and the
bare challenge is no credential. -/
theorem tokens_are_sent_as_read (outcome : Outcome) :
    (∀ token, outcome.token? = some token →
      outcome.responseHeaders =
          [(tokenHeader, token.outHeaderValue), (challengeHeader, Text.utf8 token.challenge)] ∧
        (token.bytes ≠ [] → decodeHeader token.challenge = .ok token.bytes) ∧
        Base64.decode (Text.utf8 token.base64) = .ok token.bytes ∧
        (token.isPlainText = false → token.outHeaderValue = Text.utf8 token.base64) ∧
        (token.isPlainText = true →
          (token.outHeaderValue = token.bytes ↔
            ∀ byte ∈ token.bytes, byte.toNat = 9 ∨ 32 ≤ byte.toNat ∧ byte.toNat ≠ 127) ∧
          ((∃ byte ∈ token.bytes, ¬ (byte.toNat = 9 ∨ 32 ≤ byte.toNat ∧ byte.toNat ≠ 127)) →
            token.outHeaderValue = Text.utf8 token.base64)) ∧
        Token.textValue? token.base64 = some (Text.utf8 token.base64) ∧
        Token.textValue? token.challenge = some (Text.utf8 token.challenge)) ∧
      (outcome.token? = none → ∀ value, (tokenHeader, value) ∉ outcome.responseHeaders) ∧
      absent.responseHeaders = [(challengeHeader, Text.utf8 "Negotiate")] ∧
      ∀ token, decodeHeader "Negotiate" ≠ .ok token := by
  refine ⟨?tokens, not_mem_responseHeaders, rfl, ?bare⟩
  case tokens =>
    intro token sends
    refine ⟨responseHeaders_of_token sends, ?again, Base64.decode_encode token.bytes,
      Token.outHeaderValue_of_binary, ?plain, token.textValue?_base64,
      token.textValue?_challenge⟩
    case again =>
      intro filled
      exact decodeHeader_eq_ok_iff.mpr (credential_challenge filled)
    case plain =>
      intro plain
      simp only [← Token.isHeaderByte_iff]
      refine ⟨Token.outHeaderValue_eq_bytes_iff plain, ?_⟩
      rintro ⟨byte, member, barred⟩
      exact Token.outHeaderValue_of_not_header member (Bool.eq_false_iff.mpr barred)
  case bare =>
    intro token decoded
    exact not_credential_bare token (decodeHeader_eq_ok_iff.mp decoded)

end Outcome

end SpnegoRealm
