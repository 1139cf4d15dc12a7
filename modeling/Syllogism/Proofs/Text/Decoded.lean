import Syllogism.Proofs.Except
import Syllogism.Proofs.Text.Utf8

/-! Bytes that can be decoded are the bytes of the text that they decode to, and of no other. -/

namespace Syllogism.Utf8

theorem byte_toNat (b : UInt8) : byte b.toNat = b := UInt8.ofNat_toNat

theorem code_ofNat {n : Nat} (h : n < 0xD800 ∨ 0xE000 ≤ n ∧ n < 0x110000) :
    (CodePoint.char (Char.ofNat n)).code = n := by
  have hv : n.isValidChar := by
    unfold Nat.isValidChar
    omega
  rw [Char.ofNat, dif_pos hv]
  rfl

theorem encodePoint_one {a : Nat} (ha : a < 0x80) :
    encodePoint (.char (Char.ofNat a)) = [byte a] := by
  simp only [encodePoint, code_ofNat (show a < 0xD800 ∨ _ by omega), if_pos ha]

theorem encodePoint_two {a b : Nat} (ha : 0xC2 ≤ a) (ha' : a ≤ 0xDF) (hb : isTail b) :
    encodePoint (.char (Char.ofNat ((a - 0xC0) * 0x40 + (b - 0x80)))) = [byte a, byte b] := by
  simp only [isTail, Bool.and_eq_true, decide_eq_true_eq] at hb
  generalize hn : (a - 0xC0) * 0x40 + (b - 0x80) = n
  simp only [encodePoint, code_ofNat (show n < 0xD800 ∨ _ by omega)]
  rw [if_neg (by omega), if_pos (by omega), show 0xC0 + n / 0x40 = a by omega,
    show 0x80 + n % 0x40 = b by omega]

theorem encodePoint_three {a b c : Nat} (ha : 0xE0 ≤ a) (ha' : a ≤ 0xEF)
    (hb : isSecondOfThree a b) (hc : isTail c) :
    encodePoint (.char (Char.ofNat ((a - 0xE0) * 0x1000 + (b - 0x80) * 0x40 + (c - 0x80)))) =
      [byte a, byte b, byte c] := by
  simp only [isSecondOfThree, isTail, Bool.and_eq_true, Bool.or_eq_true, bne_iff_ne,
    decide_eq_true_eq] at hb hc
  generalize hn : (a - 0xE0) * 0x1000 + (b - 0x80) * 0x40 + (c - 0x80) = n
  simp only [encodePoint, code_ofNat (show n < 0xD800 ∨ 0xE000 ≤ n ∧ n < 0x110000 by omega)]
  rw [if_neg (by omega), if_neg (by omega), if_pos (by omega),
    show 0xE0 + n / 0x1000 = a by omega, show 0x80 + n / 0x40 % 0x40 = b by omega,
    show 0x80 + n % 0x40 = c by omega]

theorem encodePoint_four {a b c d : Nat} (ha : 0xF0 ≤ a) (ha' : a ≤ 0xF4)
    (hb : isSecondOfFour a b) (hc : isTail c) (hd : isTail d) :
    encodePoint (.char (Char.ofNat ((a - 0xF0) * 0x40000 + (b - 0x80) * 0x1000 + (c - 0x80) * 0x40 +
      (d - 0x80)))) = [byte a, byte b, byte c, byte d] := by
  simp only [isSecondOfFour, isTail, Bool.and_eq_true, Bool.or_eq_true, bne_iff_ne,
    decide_eq_true_eq] at hb hc hd
  generalize hn : (a - 0xF0) * 0x40000 + (b - 0x80) * 0x1000 + (c - 0x80) * 0x40 + (d - 0x80) = n
  simp only [encodePoint, code_ofNat (show n < 0xD800 ∨ 0xE000 ≤ n ∧ n < 0x110000 by omega)]
  rw [if_neg (by omega), if_neg (by omega), if_neg (by omega),
    show 0xF0 + n / 0x40000 = a by omega, show 0x80 + n / 0x1000 % 0x40 = b by omega,
    show 0x80 + n / 0x40 % 0x40 = c by omega, show 0x80 + n % 0x40 = d by omega]

/-- One more character in front. -/
theorem encode_of_map {c : Char} (front : Bytes) {rest : Bytes} {position : Nat} {t : Text}
    (hc : encodePoint (.char c) = front)
    (ih : ∀ {t : Text}, decodeFrom position rest = .ok t → t.isWhole ∧ encode t = rest)
    (h : (decodeFrom position rest).map (.char c :: ·) = .ok t) :
    t.isWhole ∧ encode t = front ++ rest := by
  obtain ⟨t', hd, rfl⟩ := map_eq_ok.mp h
  obtain ⟨hw, he⟩ := ih hd
  refine ⟨hw, ?_⟩
  rw [encode] at he
  rw [encode, List.flatMap_cons, hc, he]

theorem encode_of_decodeFrom {position : Nat} {bytes : Bytes} {t : Text}
    (h : decodeFrom position bytes = .ok t) : t.isWhole ∧ encode t = bytes := by
  fun_induction decodeFrom position bytes generalizing t with
  | case1 =>
    obtain rfl := Except.ok.inj h
    exact ⟨rfl, rfl⟩
  | case2 position b rest a ha =>
    rename_i ih
    refine encode_of_map [b] ?_ ih h
    rw [encodePoint_one ha, byte_toNat]
  | case4 position b a _ ha b₁ rest hb =>
    rename_i ih
    refine encode_of_map [b, b₁] ?_ ih h
    rw [encodePoint_two ha.1 ha.2 hb, byte_toNat, byte_toNat]
  | case8 position b a _ _ ha b₁ hb b₂ rest hc =>
    rename_i ih
    refine encode_of_map [b, b₁, b₂] ?_ ih h
    rw [encodePoint_three ha.1 ha.2 hb hc, byte_toNat, byte_toNat, byte_toNat]
  | case14 position b a _ _ _ ha b₁ hb b₂ hc b₃ rest hd =>
    rename_i ih
    refine encode_of_map [b, b₁, b₂, b₃] ?_ ih h
    rw [encodePoint_four ha.1 ha.2 hb hc hd, byte_toNat, byte_toNat, byte_toNat, byte_toNat]
  | case3 | case5 | case6 | case7 | case9 | case10 | case11 | case12 | case13 | case15 | case16
  | case17 | case18 => cases h

theorem decode_eq_ok_iff {bytes : Bytes} {t : Text} :
    decode bytes = .ok t ↔ t.isWhole ∧ encode t = bytes := by
  constructor
  · exact encode_of_decodeFrom
  · rintro ⟨hw, rfl⟩
    exact decode_encode hw

/-- The mark that may stand in front of the bytes. -/
def mark : Bytes := [0xEF, 0xBB, 0xBF]

theorem dropMark_cases (bytes : Bytes) :
    bytes = mark ++ dropMark bytes ∨ dropMark bytes = bytes := by
  unfold dropMark
  split
  · exact .inl rfl
  · exact .inr rfl

/-- The mark is a character of its own, so only a text that starts with that has it in front. -/
theorem dropMark_encode {t : Text} (ht : t.isWhole) (hm : t.head? ≠ some '\uFEFF') :
    dropMark (encode t) = encode t := by
  obtain h | h := dropMark_cases (encode t)
  · have hd := decode_encode ht
    have hf : decodeFrom 0 (mark ++ dropMark (encode t)) =
        (decodeFrom 3 (dropMark (encode t))).map (.char '\uFEFF' :: ·) :=
      decodeFrom_three (a := 0xEF) (b := 0xBB) (c := 0xBF) (by decide) (by decide) rfl rfl 0 _
    rw [h, decode, hf] at hd
    cases hr : decodeFrom 3 (dropMark (encode t)) with
    | error f =>
      rw [hr] at hd
      cases hd
    | ok rest =>
      rw [hr] at hd
      obtain rfl := Except.ok.inj hd
      exact absurd rfl hm
  · exact h

end Syllogism.Utf8
