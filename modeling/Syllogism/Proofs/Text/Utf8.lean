import Syllogism.Text.Utf8

/-! Decoding undoes encoding. Only halves have no place in UTF-8: a text without them comes back
as it was, and a text with them is refused. -/

namespace Syllogism

/-- Nothing but characters. -/
def Text.isWhole (t : Text) : Bool := t.all fun c => !c.isHalf

namespace Utf8

theorem toNat_byte {n : Nat} (h : n < 0x100) : (byte n).toNat = n := by
  simp only [byte, UInt8.toNat_ofNat']
  omega

theorem lt_of_isTail {b : Nat} (hb : isTail b) : b < 0x100 := by
  simp only [isTail, Bool.and_eq_true, decide_eq_true_eq] at hb
  omega

theorem decodeFrom_one {a : Nat} (ha : a < 0x80) (position : Nat) (rest : Bytes) :
    decodeFrom position (byte a :: rest) =
      (decodeFrom (position + 1) rest).map (.char (Char.ofNat a) :: ·) := by
  rw [decodeFrom.eq_def]
  simp only [toNat_byte (show a < 0x100 by omega)]
  rw [if_pos ha]

theorem decodeFrom_two {a b : Nat} (ha : 0xC2 ≤ a) (ha' : a ≤ 0xDF) (hb : isTail b)
    (position : Nat) (rest : Bytes) :
    decodeFrom position (byte a :: byte b :: rest) =
      (decodeFrom (position + 2) rest).map
        (.char (Char.ofNat ((a - 0xC0) * 0x40 + (b - 0x80))) :: ·) := by
  rw [decodeFrom.eq_def]
  simp only [toNat_byte (show a < 0x100 by omega), toNat_byte (lt_of_isTail hb)]
  rw [if_neg (by omega), if_pos ⟨ha, ha'⟩, if_pos hb]

theorem decodeFrom_three {a b c : Nat} (ha : 0xE0 ≤ a) (ha' : a ≤ 0xEF) (hb : isSecondOfThree a b)
    (hc : isTail c) (position : Nat) (rest : Bytes) :
    decodeFrom position (byte a :: byte b :: byte c :: rest) =
      (decodeFrom (position + 3) rest).map
        (.char (Char.ofNat ((a - 0xE0) * 0x1000 + (b - 0x80) * 0x40 + (c - 0x80))) :: ·) := by
  have hb' : isTail b := by
    simp only [isSecondOfThree, Bool.and_eq_true] at hb
    exact hb.1.1
  rw [decodeFrom.eq_def]
  simp only [toNat_byte (show a < 0x100 by omega), toNat_byte (lt_of_isTail hb'),
    toNat_byte (lt_of_isTail hc)]
  rw [if_neg (by omega), if_neg (by omega), if_pos ⟨ha, ha'⟩, if_pos hb, if_pos hc]

theorem decodeFrom_four {a b c d : Nat} (ha : 0xF0 ≤ a) (ha' : a ≤ 0xF4)
    (hb : isSecondOfFour a b) (hc : isTail c) (hd : isTail d) (position : Nat) (rest : Bytes) :
    decodeFrom position (byte a :: byte b :: byte c :: byte d :: rest) =
      (decodeFrom (position + 4) rest).map
        (.char (Char.ofNat ((a - 0xF0) * 0x40000 + (b - 0x80) * 0x1000 + (c - 0x80) * 0x40 +
          (d - 0x80))) :: ·) := by
  have hb' : isTail b := by
    simp only [isSecondOfFour, Bool.and_eq_true] at hb
    exact hb.1.1
  rw [decodeFrom.eq_def]
  simp only [toNat_byte (show a < 0x100 by omega), toNat_byte (lt_of_isTail hb'),
    toNat_byte (lt_of_isTail hc), toNat_byte (lt_of_isTail hd)]
  rw [if_neg (by omega), if_neg (by omega), if_neg (by omega), if_pos ⟨ha, ha'⟩, if_pos hb,
    if_pos hc, if_pos hd]

theorem isTail_low (n : Nat) : isTail (0x80 + n % 0x40) := by
  simp only [isTail, Bool.and_eq_true, decide_eq_true_eq]
  omega

/-- The bytes of a character are read as this character, whatever follows them. -/
theorem decodeFrom_encodePoint (position : Nat) (c : Char) (rest : Bytes) :
    ∃ position', decodeFrom position (encodePoint (.char c) ++ rest) =
      (decodeFrom position' rest).map (.char c :: ·) := by
  have hlt : c.toNat < 0x110000 := by
    have hc := c.valid
    simp only [UInt32.isValidChar, Nat.isValidChar] at hc
    change c.val.toNat < 0x110000
    omega
  have hgap := CodePoint.code_char_lt_or_le c
  have hchar : Char.ofNat (CodePoint.char c).code = c := Char.ofNat_toNat c
  change (CodePoint.char c).code < 0x110000 at hlt
  rw [encodePoint]
  generalize (CodePoint.char c).code = n at *
  by_cases h₁ : n < 0x80
  · rw [if_pos h₁]
    exact ⟨_, hchar ▸ decodeFrom_one h₁ position rest⟩
  rw [if_neg h₁]
  by_cases h₂ : n < 0x800
  · rw [if_pos h₂]
    refine ⟨position + 2, ?_⟩
    refine (decodeFrom_two (by omega) (by omega) (isTail_low _) position rest).trans ?_
    rw [show (0xC0 + n / 0x40 - 0xC0) * 0x40 + (0x80 + n % 0x40 - 0x80) = n by omega, hchar]
  rw [if_neg h₂]
  by_cases h₃ : n < 0x10000
  · rw [if_pos h₃]
    refine ⟨position + 3,
      (decodeFrom_three (by omega) (by omega) ?_ (isTail_low _) position rest).trans ?_⟩
    · simp only [isSecondOfThree, isTail_low, Bool.true_and, Bool.and_eq_true, Bool.or_eq_true,
        bne_iff_ne, decide_eq_true_eq]
      omega
    · rw [show (0xE0 + n / 0x1000 - 0xE0) * 0x1000 + (0x80 + n / 0x40 % 0x40 - 0x80) * 0x40 +
        (0x80 + n % 0x40 - 0x80) = n by omega, hchar]
  · rw [if_neg h₃]
    refine ⟨position + 4, (decodeFrom_four (by omega) (by omega) ?_ (isTail_low _) (isTail_low _)
      position rest).trans ?_⟩
    · simp only [isSecondOfFour, isTail_low, Bool.true_and, Bool.and_eq_true, Bool.or_eq_true,
        bne_iff_ne, decide_eq_true_eq]
      omega
    · rw [show (0xF0 + n / 0x40000 - 0xF0) * 0x40000 + (0x80 + n / 0x1000 % 0x40 - 0x80) * 0x1000 +
        (0x80 + n / 0x40 % 0x40 - 0x80) * 0x40 + (0x80 + n % 0x40 - 0x80) = n by omega, hchar]

theorem decodeFrom_encode (position : Nat) {t : Text} (ht : t.isWhole) :
    decodeFrom position (encode t) = .ok t := by
  induction t generalizing position with
  | nil => rfl
  | cons c t ih =>
    simp only [Text.isWhole, List.all_cons, Bool.and_eq_true] at ht
    cases c with
    | half n => simp [CodePoint.isHalf] at ht
    | char c =>
      obtain ⟨position', h⟩ := decodeFrom_encodePoint position c (encode t)
      rw [encode, List.flatMap_cons]
      rw [encode] at h
      rw [h]
      change Except.map _ (decodeFrom position' (encode t)) = _
      rw [ih position' ht.2]
      rfl

theorem decode_encode {t : Text} (ht : t.isWhole) : decode (encode t) = .ok t :=
  decodeFrom_encode 0 ht

theorem gapFrom?_eq_none_iff {takes : Fin 0x800 → Bool} (position : Nat) (t : Text) :
    gapFrom? takes position t = none ↔ ∀ n, .half n ∈ t → takes n = true := by
  induction t generalizing position with
  | nil => simp [gapFrom?]
  | cons c t ih =>
    cases c with
    | char c => simp [gapFrom?, ih]
    | half n =>
      rw [gapFrom?]
      split
      · rename_i h
        rw [ih]
        simp [h]
      · rename_i h
        simp [h]

/-- A text is refused for the halves in it that are not taken. -/
theorem refused?_eq_none_iff {takes : Fin 0x800 → Bool} (t : Text) :
    refused? takes t = none ↔ ∀ n, .half n ∈ t → takes n = true := gapFrom?_eq_none_iff 0 t

theorem gap?_eq_none_iff (t : Text) : gap? t = none ↔ t.isWhole := by
  rw [gap?, refused?_eq_none_iff]
  simp only [Text.isWhole, List.all_eq_true, Bool.not_eq_true']
  constructor
  · intro h c hc
    cases c with
    | char c => rfl
    | half n => exact absurd (h n hc) Bool.false_ne_true
  · intro h n hn
    exact absurd (h _ hn) (by simp [CodePoint.isHalf])

theorem encode_append (s t : Text) : encode (s ++ t) = encode s ++ encode t := List.flatMap_append

end Utf8

end Syllogism
