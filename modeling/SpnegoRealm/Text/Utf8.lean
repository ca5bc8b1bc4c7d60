/-! # Bytes and the texts they encode

Byte strings are lists. Strict decoding refuses anything that is not UTF-8; lossy decoding puts
one replacement character for each longest start of a sequence that cannot be completed.
-/

namespace SpnegoRealm

/-- A byte string. -/
abbrev Bytes := List UInt8

namespace Text

/-- The UTF-8 bytes of a text. -/
def utf8 (text : String) : Bytes :=
  text.toUTF8.toList

/-- The text that some bytes encode, if they are UTF-8. -/
def ofUtf8? (bytes : Bytes) : Option String :=
  String.fromUTF8? ⟨bytes.toArray⟩

namespace Utf8

/-- Whether a byte can follow the first byte of a sequence. -/
def isContinuation (byte : UInt8) : Bool :=
  0x80 ≤ byte && byte ≤ 0xBF

/-- The number of bytes in the sequence that a first byte opens, and the second bytes it
admits; `none` for a byte that opens no sequence of several bytes. -/
def opening? (first : UInt8) : Option (Nat × UInt8 × UInt8) :=
  if 0xC2 ≤ first && first ≤ 0xDF then some (2, 0x80, 0xBF)
  else if first == 0xE0 then some (3, 0xA0, 0xBF)
  else if first == 0xED then some (3, 0x80, 0x9F)
  else if 0xE1 ≤ first && first ≤ 0xEF then some (3, 0x80, 0xBF)
  else if first == 0xF0 then some (4, 0x90, 0xBF)
  else if 0xF1 ≤ first && first ≤ 0xF3 then some (4, 0x80, 0xBF)
  else if first == 0xF4 then some (4, 0x80, 0x8F)
  else none

/-- The character with these payload bits. -/
def assemble (lead : Nat) (continuations : List UInt8) : Char :=
  Char.ofNat (continuations.foldl (fun code byte => code * 64 + (byte.toNat - 0x80)) lead)

/-- One replacement character. -/
def replacement : Char := '\uFFFD'

end Utf8

open Utf8 in
/-- Decode with one replacement character for each longest start of an incomplete sequence. -/
def ofUtf8Lossy (bytes : Bytes) : List Char :=
  match bytes with
  | [] => []
  | first :: rest =>
    if first < 0x80 then
      Char.ofNat first.toNat :: ofUtf8Lossy rest
    else
      match opening? first with
      | none => replacement :: ofUtf8Lossy rest
      | some (width, low, high) =>
        match rest with
        | [] => [replacement]
        | second :: afterSecond =>
          if !(low ≤ second && second ≤ high) then
            replacement :: ofUtf8Lossy (second :: afterSecond)
          else if width == 2 then
            assemble (first.toNat - 0xC0) [second] :: ofUtf8Lossy afterSecond
          else
            match afterSecond with
            | [] => [replacement]
            | third :: afterThird =>
              if !isContinuation third then
                replacement :: ofUtf8Lossy (third :: afterThird)
              else if width == 3 then
                assemble (first.toNat - 0xE0) [second, third] :: ofUtf8Lossy afterThird
              else
                match afterThird with
                | [] => [replacement]
                | fourth :: afterFourth =>
                  if !isContinuation fourth then
                    replacement :: ofUtf8Lossy (fourth :: afterFourth)
                  else
                    assemble (first.toNat - 0xF0) [second, third, fourth] ::
                      ofUtf8Lossy afterFourth
termination_by bytes.length

/-- The text that bytes show as: lossy where they are not UTF-8. -/
def display (bytes : Bytes) : String :=
  String.ofList (ofUtf8Lossy bytes)

end Text

end SpnegoRealm
