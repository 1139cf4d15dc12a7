/-! Code points: characters, and halves of pairs. -/

namespace Syllogism

/-- A character, or a half of a pair on its own. A pair of halves is another spelling of a character
past the first 65536; an escape can name a half without its partner. -/
inductive CodePoint where
  | char (c : Char)
  | half (n : Fin 0x800)
  deriving DecidableEq, Repr

namespace CodePoint

instance : Coe Char CodePoint := ⟨char⟩

instance : Inhabited CodePoint := ⟨' '⟩

/-- The halves have the codes that no character has. -/
def code : CodePoint → Nat
  | char c => c.toNat
  | half n => 0xD800 + n

def ofCode (n : Nat) : CodePoint :=
  if h : 0xD800 ≤ n ∧ n < 0xE000 then half ⟨n - 0xD800, by omega⟩ else char (Char.ofNat n)

def isHalf : CodePoint → Bool
  | char _ => false
  | half _ => true

theorem code_char_lt_or_le (c : Char) : (char c).code < 0xD800 ∨ 0xE000 ≤ (char c).code := by
  have h := c.valid
  simp only [UInt32.isValidChar, Nat.isValidChar] at h
  show c.val.toNat < 0xD800 ∨ 0xE000 ≤ c.val.toNat
  omega

/-- A code names one code point. -/
theorem ofCode_code (c : CodePoint) : ofCode c.code = c := by
  cases c with
  | char c =>
    rw [ofCode, dif_neg (by have := code_char_lt_or_le c; omega)]
    simp only [code, Char.ofNat_toNat]
  | half n =>
    rw [ofCode, dif_pos (by simp only [code]; omega)]
    simp only [code, Nat.add_sub_cancel_left]

end CodePoint

end Syllogism
