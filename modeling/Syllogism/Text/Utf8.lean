import Syllogism.Text.Digit
import Syllogism.Text.Quoted

/-! UTF-8: the bytes of a text, and reading them back with an exact account of what is wrong. -/

namespace Syllogism.Utf8

def byte (n : Nat) : UInt8 := UInt8.ofNat n

/-- The bytes of a code. UTF-8 has none for a half, which gets what its code would come to. -/
def encodePoint (c : CodePoint) : Bytes :=
  let n := c.code
  if n < 0x80 then [byte n]
  else if n < 0x800 then [byte (0xC0 + n / 0x40), byte (0x80 + n % 0x40)]
  else if n < 0x10000 then
    [byte (0xE0 + n / 0x1000), byte (0x80 + n / 0x40 % 0x40), byte (0x80 + n % 0x40)]
  else
    [byte (0xF0 + n / 0x40000), byte (0x80 + n / 0x1000 % 0x40), byte (0x80 + n / 0x40 % 0x40),
      byte (0x80 + n % 0x40)]

def encode (t : Text) : Bytes := t.flatMap encodePoint

/-- Halves in a row, which have no place in UTF-8: where the first one stands, its code, and how
many they are. -/
structure Gap where
  position : Nat
  first : Nat
  count : Nat
  deriving DecidableEq, Repr

def gapFrom? (takes : Fin 0x800 → Bool) (position : Nat) : Text → Option Gap
  | [] => none
  | .char _ :: rest => gapFrom? takes (position + 1) rest
  | .half n :: rest =>
    if takes n then gapFrom? takes (position + 1) rest
    else some ⟨position, (CodePoint.half n).code, (rest.takeWhile CodePoint.isHalf).length + 1⟩

/-- The first half in a text that is not taken, with the halves right behind it. -/
def refused? (takes : Fin 0x800 → Bool) (t : Text) : Option Gap := gapFrom? takes 0 t

/-- The first halves in a text. -/
def gap? (t : Text) : Option Gap := refused? (fun _ => false) t

def Gap.message (g : Gap) : Text :=
  let place : Text :=
    if g.count = 1 then
      Text.of "character '\\u" ++ Text.hex 4 g.first ++ Text.of "' in position " ++
        Text.ofNat g.position
    else
      Text.of "characters in position " ++ Text.ofNat g.position ++ .char '-' ::
        Text.ofNat (g.position + g.count - 1)
  Text.of "'utf-8' codec can't encode " ++ place ++ Text.of ": surrogates not allowed"

/-- Why bytes are not the start of a character. -/
inductive Reason where
  | badStart
  | badContinuation
  | cutShort
  deriving DecidableEq, Repr

/-- The bytes from `position` on that are the start of a character as far as they go. -/
structure Fault where
  position : Nat
  first : UInt8
  count : Nat
  reason : Reason
  deriving DecidableEq, Repr

def Reason.message : Reason → Text
  | badStart => "invalid start byte"
  | badContinuation => "invalid continuation byte"
  | cutShort => "unexpected end of data"

def Fault.message (f : Fault) : Text :=
  let place : Text :=
    if f.count = 1 then
      Text.of "byte 0x" ++ Text.hex 2 f.first.toNat ++ Text.of " in position " ++
        Text.ofNat f.position
    else
      Text.of "bytes in position " ++ Text.ofNat f.position ++ .char '-' ::
        Text.ofNat (f.position + f.count - 1)
  Text.of "'utf-8' codec can't decode " ++ place ++ Text.of ": " ++ f.reason.message

/-- The byte carries six bits of a character that has begun. -/
def isTail (b : Nat) : Bool := 0x80 ≤ b && b ≤ 0xBF

/-- The second byte of a character of three keeps clear of short spellings and of surrogates. -/
def isSecondOfThree (first b : Nat) : Bool :=
  isTail b && (first != 0xE0 || 0xA0 ≤ b) && (first != 0xED || b ≤ 0x9F)

/-- The second byte of a character of four keeps clear of short spellings and of what lies past the
last code point. -/
def isSecondOfFour (first b : Nat) : Bool :=
  isTail b && (first != 0xF0 || 0x90 ≤ b) && (first != 0xF4 || b ≤ 0x8F)

def decodeFrom (position : Nat) : Bytes → Except Fault Text
  | [] => .ok []
  | b :: rest =>
    let a := b.toNat
    if a < 0x80 then (decodeFrom (position + 1) rest).map (.char (Char.ofNat a) :: ·)
    else if 0xC2 ≤ a ∧ a ≤ 0xDF then
      match rest with
      | [] => .error ⟨position, b, 1, .cutShort⟩
      | b₁ :: rest =>
        if isTail b₁.toNat then
          (decodeFrom (position + 2) rest).map
            (.char (Char.ofNat ((a - 0xC0) * 0x40 + (b₁.toNat - 0x80))) :: ·)
        else .error ⟨position, b, 1, .badContinuation⟩
    else if 0xE0 ≤ a ∧ a ≤ 0xEF then
      match rest with
      | [] => .error ⟨position, b, 1, .cutShort⟩
      | b₁ :: rest =>
        if isSecondOfThree a b₁.toNat then
          match rest with
          | [] => .error ⟨position, b, 2, .cutShort⟩
          | b₂ :: rest =>
            if isTail b₂.toNat then
              (decodeFrom (position + 3) rest).map
                (.char (Char.ofNat ((a - 0xE0) * 0x1000 + (b₁.toNat - 0x80) * 0x40 +
                  (b₂.toNat - 0x80))) :: ·)
            else .error ⟨position, b, 2, .badContinuation⟩
        else .error ⟨position, b, 1, .badContinuation⟩
    else if 0xF0 ≤ a ∧ a ≤ 0xF4 then
      match rest with
      | [] => .error ⟨position, b, 1, .cutShort⟩
      | b₁ :: rest =>
        if isSecondOfFour a b₁.toNat then
          match rest with
          | [] => .error ⟨position, b, 2, .cutShort⟩
          | b₂ :: rest =>
            if isTail b₂.toNat then
              match rest with
              | [] => .error ⟨position, b, 3, .cutShort⟩
              | b₃ :: rest =>
                if isTail b₃.toNat then
                  (decodeFrom (position + 4) rest).map
                    (.char (Char.ofNat ((a - 0xF0) * 0x40000 + (b₁.toNat - 0x80) * 0x1000 +
                      (b₂.toNat - 0x80) * 0x40 + (b₃.toNat - 0x80))) :: ·)
                else .error ⟨position, b, 3, .badContinuation⟩
            else .error ⟨position, b, 2, .badContinuation⟩
        else .error ⟨position, b, 1, .badContinuation⟩
    else .error ⟨position, b, 1, .badStart⟩

def decode (bytes : Bytes) : Except Fault Text := decodeFrom 0 bytes

/-- The bytes without the mark of UTF-8 that may stand in front of them. -/
def dropMark : Bytes → Bytes
  | 0xEF :: 0xBB :: 0xBF :: rest => rest
  | bytes => bytes

end Syllogism.Utf8
