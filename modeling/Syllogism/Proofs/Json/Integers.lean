import Syllogism.Json.Printer
import Syllogism.Proofs.Json.Numerals

/-! Integers as they are printed and read back. -/

namespace Syllogism.Json

theorem isFigure_of_mem_ofNat {n : Nat} {c : CodePoint} (hc : c ∈ Text.ofNat n) :
    isFigure c = true := by
  obtain ⟨d, hd, rfl⟩ := List.mem_map.mp hc
  have h := Nat.isDigit_of_mem_toDigits (by decide) (by decide) hd
  simp only [Char.isDigit, Bool.and_eq_true, decide_eq_true_eq, UInt32.le_iff_toNat_le] at h
  change (decide (48 ≤ d.toNat) && decide (d.toNat ≤ 57)) = true
  rw [Bool.and_eq_true, decide_eq_true_eq, decide_eq_true_eq]
  exact h

theorem ofNat_ne_nil (n : Nat) : Text.ofNat n ≠ [] := by
  simp [Text.ofNat, Nat.toDigits_ne_nil]

theorem ofNat_of_le {n : Nat} (h : 10 ≤ n) :
    Text.ofNat n = Text.ofNat (n / 10) ++ [.char (Nat.digitChar (n % 10))] := by
  simp only [Text.ofNat, Nat.toDigits_of_base_le (by decide) h, List.map_append, List.map_cons,
    List.map_nil]

theorem ofNat_of_lt {n : Nat} (h : n < 10) : Text.ofNat n = [.char (Nat.digitChar n)] := by
  simp only [Text.ofNat, Nat.toDigits_of_lt_base h, List.map_cons, List.map_nil]

theorem digitChar_lt_ten : ∀ n < 10, Decimal.digitValue (.char (Nat.digitChar n)) = n ∧
    (n ≠ 0 → (.char (Nat.digitChar n) : CodePoint) ≠ '0') := by decide

/-- A zero comes first only where it is all. -/
theorem head?_ofNat_ne_zero {n : Nat} (hn : n ≠ 0) : (Text.ofNat n).head? ≠ some '0' := by
  induction n using Nat.strongRecOn with
  | ind n ih =>
    by_cases h : n < 10
    · rw [ofNat_of_lt h, List.head?_cons]
      exact fun he => (digitChar_lt_ten n h).2 hn (Option.some.inj he)
    · rw [ofNat_of_le (by omega), List.head?_append, Option.or_of_isSome (by
        simp [List.isSome_head?, ofNat_ne_nil])]
      exact ih (n / 10) (by omega) (by omega)

theorem valueOf_ofNat (n : Nat) : Decimal.valueOf (Text.ofNat n) = n := by
  induction n using Nat.strongRecOn with
  | ind n ih =>
    by_cases h : n < 10
    · rw [ofNat_of_lt h]
      simp only [Decimal.valueOf, List.foldl_cons, List.foldl_nil, (digitChar_lt_ten n h).1]
      omega
    · have hi := ih (n / 10) (by omega)
      rw [ofNat_of_le (by omega)]
      simp only [Decimal.valueOf] at hi ⊢
      rw [List.foldl_append, hi]
      simp only [List.foldl_cons, List.foldl_nil, (digitChar_lt_ten (n % 10) (by omega)).1]
      omega

theorem ofNat_injective : Function.Injective Text.ofNat := by
  intro m n h
  rw [← valueOf_ofNat m, h, valueOf_ofNat]

theorem isWhole_ofNat (n : Nat) : IsWhole (Text.ofNat n) := by
  by_cases hn : n = 0
  · exact .inl (by rw [hn]; rfl)
  · exact .inr ⟨⟨ofNat_ne_nil n, fun c => isFigure_of_mem_ofNat⟩, head?_ofNat_ne_zero hn⟩

/-- The number that is printed for an integer. -/
def numeralOf : Int → Numeral
  | .ofNat n => ⟨false, Text.ofNat n, [], none⟩
  | .negSucc n => ⟨true, Text.ofNat (n + 1), [], none⟩

theorem whole_numeralOf (i : Int) : (numeralOf i).whole = Text.ofNat i.natAbs := by
  cases i <;> rfl

theorem spelled_ofInt (i : Int) : (numeralOf i).Spelled (Text.ofInt i) := by
  cases i with
  | ofNat n =>
    have h := Numeral.Spelled.mk (n := numeralOf (.ofNat n)) (isWhole_ofNat n) .none .none
    rwa [List.append_nil, List.append_nil] at h
  | negSucc n =>
    have h := Numeral.Spelled.mk (n := numeralOf (.negSucc n)) (isWhole_ofNat (n + 1)) .none .none
    rwa [List.append_nil, List.append_nil] at h

theorem meaning_numeralOf (i : Int) : (numeralOf i).meaning = integer i := by
  cases i with
  | ofNat n =>
    change integer (Decimal.valueOf (Text.ofNat n) : Int) = _
    rw [valueOf_ofNat]
    rfl
  | negSucc n =>
    change integer (-(Decimal.valueOf (Text.ofNat (n + 1)) : Int)) = _
    rw [valueOf_ofNat]
    rfl

theorem takes_integer {stops : Stop → Prop} (room : Nat) {i : Int}
    (hi : (Text.ofNat i.natAbs).length ≤ digitLimit) :
    Takes stops (valueWithin room) (Text.ofInt i) (integer i) := by
  rw [← meaning_numeralOf]
  refine takes_number room (spelled_ofInt i) ?_
  obtain ⟨-, h⟩ | ⟨-, h, -⟩ := numeral_value_cases (numeralOf i)
  · exact .inl h
  · rw [whole_numeralOf] at h
    omega

end Syllogism.Json
