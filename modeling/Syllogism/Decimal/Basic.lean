import Syllogism.Text.Basic

/-! Numbers as they are written in decimal. -/

namespace Syllogism

/-- A number written in decimal, or one of the words for what is none: `finite negative digits
exponent` is digits · 10 ^ exponent with a sign. -/
inductive Decimal where
  | notANumber
  | infinite (negative : Bool)
  | finite (negative : Bool) (digits : Nat) (exponent : Int)
  deriving DecidableEq, Repr

namespace Decimal

def digitValue (c : CodePoint) : Nat := c.code - '0'.toNat

/-- The number that a list of decimal digits stands for. -/
def valueOf (digits : Text) : Nat :=
  digits.foldl (fun n c => 10 * n + digitValue c) 0

end Decimal

end Syllogism
