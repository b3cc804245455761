import MsgPack.Wire.BigEndian

/-!
# Text as UTF-8

A decoder that says exactly where and why bytes are no text.  Every sequence is read by its
first byte, which fixes its length and the range of the second byte; the ranges leave out
overlong sequences, surrogates and numbers above the last scalar value.  A failure names the
length of the valid text before it, and the number of bytes at that place that could have
started a sequence, unless the input ends before the sequence does.
-/

namespace MsgPack.Utf8

/-- Why bytes are no text.  Both causes give the length of the longest valid beginning. -/
inductive Failure where
  /-- The `length` bytes at `start` do not begin any sequence with the byte after them. -/
  | invalid (length start : Nat)
  /-- The input ends within a sequence that is valid so far. -/
  | incomplete (start : Nat)
  deriving DecidableEq, Repr

/-- The wording of a failure. -/
def Failure.message : Failure → String
  | .invalid length start =>
      "invalid utf-8 sequence of " ++ toString length ++ " bytes from index " ++ toString start
  | .incomplete start => "incomplete utf-8 byte sequence from index " ++ toString start

/-- The bytes after the first of a sequence. -/
def isContinuation (byte : UInt8) : Bool :=
  0x80 ≤ byte && byte ≤ 0xbf

/-- The second bytes that a first byte of a sequence of three allows. -/
def isSecondOfThree (first second : UInt8) : Bool :=
  if first = 0xe0 then 0xa0 ≤ second && second ≤ 0xbf
  else if first = 0xed then 0x80 ≤ second && second ≤ 0x9f
  else isContinuation second

/-- The second bytes that a first byte of a sequence of four allows. -/
def isSecondOfFour (first second : UInt8) : Bool :=
  if first = 0xf0 then 0x90 ≤ second && second ≤ 0xbf
  else if first = 0xf4 then 0x80 ≤ second && second ≤ 0x8f
  else isContinuation second

/-- The low six bits of a continuation byte. -/
def payload (byte : UInt8) : Nat :=
  byte.toNat % 64

/-- Reads the text of `bytes`, which stand at `start` after the characters of `read`, the
last of them first. -/
def decodeFrom (start : Nat) (read : List Char) : Bytes → Except Failure (List Char)
  | [] => .ok read.reverse
  | first :: rest =>
      if first < 0x80 then
        decodeFrom (start + 1) (Char.ofNat first.toNat :: read) rest
      else if 0xc2 ≤ first && first ≤ 0xdf then
        match rest with
        | [] => .error (.incomplete start)
        | second :: rest =>
            if isContinuation second then
              let scalar := first.toNat % 32 * 64 + payload second
              decodeFrom (start + 2) (Char.ofNat scalar :: read) rest
            else .error (.invalid 1 start)
      else if 0xe0 ≤ first && first ≤ 0xef then
        match rest with
        | [] => .error (.incomplete start)
        | [second] =>
            if isSecondOfThree first second then .error (.incomplete start)
            else .error (.invalid 1 start)
        | second :: third :: rest =>
            if !isSecondOfThree first second then .error (.invalid 1 start)
            else if !isContinuation third then .error (.invalid 2 start)
            else
              let scalar := (first.toNat % 16 * 64 + payload second) * 64 + payload third
              decodeFrom (start + 3) (Char.ofNat scalar :: read) rest
      else if 0xf0 ≤ first && first ≤ 0xf4 then
        match rest with
        | [] => .error (.incomplete start)
        | [second] =>
            if isSecondOfFour first second then .error (.incomplete start)
            else .error (.invalid 1 start)
        | [second, third] =>
            if !isSecondOfFour first second then .error (.invalid 1 start)
            else if !isContinuation third then .error (.invalid 2 start)
            else .error (.incomplete start)
        | second :: third :: fourth :: rest =>
            if !isSecondOfFour first second then .error (.invalid 1 start)
            else if !isContinuation third then .error (.invalid 2 start)
            else if !isContinuation fourth then .error (.invalid 3 start)
            else
              let scalar :=
                ((first.toNat % 8 * 64 + payload second) * 64 + payload third) * 64
                  + payload fourth
              decodeFrom (start + 4) (Char.ofNat scalar :: read) rest
      else .error (.invalid 1 start)

/-- Reads bytes as text. -/
def decode (bytes : Bytes) : Except Failure String :=
  (decodeFrom 0 [] bytes).map String.ofList

/-- The bytes of a text. -/
def encode (text : String) : Bytes :=
  text.toList.flatMap String.utf8EncodeChar

@[simp]
theorem encode_empty : encode "" = [] := by
  simp [encode]

@[simp]
theorem decode_nil : decode [] = .ok "" := rfl

end MsgPack.Utf8
