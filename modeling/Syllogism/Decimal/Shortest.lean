import Syllogism.Decimal.Basic
import Syllogism.Text.Digit

/-! The shortest decimal that names the same binary number of 53 bits. All arithmetic is on natural
numbers. -/

namespace Syllogism.Decimal

/-- The quotient rounded to the nearest whole number, and a half to the even one. -/
def roundDiv (num den : Nat) : Nat :=
  let q := num / den
  let r := num % den
  if 2 * r < den ∨ (2 * r = den ∧ q % 2 = 0) then q else q + 1

/-- The fraction num / den times the power of a base. -/
def scale (base : Nat) (e : Int) (num den : Nat) : Nat × Nat :=
  match e with
  | .ofNat n => (num * base.pow n, den)
  | .negSucc n => (num, den * base.pow (n + 1))

/-- The greatest e with base ^ e ≤ num / den, given one that is at most one too low or too high. -/
def floorLog (base : Nat) (guess : Int) (num den : Nat) : Int :=
  let atLeast (e : Int) : Bool := let (n, d) := scale base (-e) num den; d ≤ n
  if atLeast (guess + 1) then guess + 1 else if atLeast guess then guess else guess - 1

/-- The least whole number of 53 bits, the 52nd power of two. -/
def leastFull : Nat := 4503599627370496

/-- The binary number nearest to a positive fraction: `some (m, q)` is m · 2 ^ q with m below
2 ^ 53, and `none` is past the greatest. -/
def nearestBinary (num den : Nat) : Option (Nat × Int) :=
  let e := floorLog 2 ((Nat.log2 num : Int) - Nat.log2 den) num den
  let q := max (e - 52) (-1074)
  let (n, d) := scale 2 (-q) num den
  let m := roundDiv n d
  let (m, q) := if m = 2 * leastFull then (leastFull, q + 1) else (m, q)
  if q > 971 then none else some (m, q)

/-- Whether the fraction num / den rounds to m · 2 ^ q. -/
def roundsTo (m : Nat) (q : Int) (num den : Nat) : Bool :=
  -- in quarters of 2 ^ q the number is 4 m
  let (n, d) := scale 2 (2 - q) num den
  let low := if m = leastFull ∧ q > -1074 then 4 * m - 1 else 4 * m - 2
  let high := 4 * m + 2
  if m % 2 = 0 then low * d ≤ n && n ≤ high * d else low * d < n && n < high * d

/-- The digits and the exponent of the decimal with fewest digits that rounds to m · 2 ^ q, of two
such the nearer. `length` is the number of digits that is tried first. -/
def shortestFrom (m : Nat) (q : Int) (top : Int) : (tries : Nat) → (length : Int) → Nat × Int
  | 0, _ => let (n, d) := scale 2 q m 1; (n / d, 0)
  | tries + 1, length =>
    let e := top + 1 - length
    let (n, d) := let (n, d) := scale 2 q m 1; scale 10 (-e) n d
    let near := roundDiv n d
    let far := if near * d ≤ n then near + 1 else near - 1
    let fits (k : Nat) : Bool := let (n, d) := scale 10 e k 1; roundsTo m q n d
    if fits near then (near, e)
    else if fits far then (far, e)
    else shortestFrom m q top tries (length + 1)

def shortest (m : Nat) (q : Int) : Nat × Int :=
  let (n, d) := scale 2 q m 1
  let guess := ((Nat.toDigits 10 n).length : Int) - (Nat.toDigits 10 d).length
  shortestFrom m q (floorLog 10 guess n d) 17 1

/-- Positional from 0.0001 on and below 10 ^ 16, with a digit on both sides of the point; else with
an exponent of two digits or more. -/
def layOut (digits : Text) (exponent : Int) : Text :=
  let digits := Text.dropEndWhile (· == .char '0') digits
  let point := exponent
  if -4 < point ∧ point ≤ 0 then
    Text.of "0." ++ List.replicate (-point).toNat (.char '0') ++ digits
  else if 0 < point ∧ point ≤ 16 then
    let n := point.toNat
    if digits.length ≤ n then
      digits ++ List.replicate (n - digits.length) (.char '0') ++ Text.of ".0"
    else digits.take n ++ .char '.' :: digits.drop n
  else
    let mantissa := match digits with
      | [d] => [d]
      | d :: ds => d :: '.' :: ds
      | [] => []
    let e := point - 1
    let size := Text.ofNat e.natAbs
    mantissa ++ .char 'e' :: (if e < 0 then .char '-' else .char '+') ::
      (if size.length < 2 then .char '0' :: size else size)

def signed (negative : Bool) (t : Text) : Text := if negative then '-' :: t else t

def unsignedText (digits : Nat) (exponent : Int) : Text :=
  let written := Text.ofNat digits
  let top := (written.length : Int) + exponent
  if digits = 0 ∨ top < -400 then "0.0"
  else if top > 400 then "inf"
  else
    let (num, den) := scale 10 exponent digits 1
    match nearestBinary num den with
    | none => "inf"
    | some (0, _) => "0.0"
    | some (m, q) =>
      let (k, e) := shortest m q
      let ks := Text.ofNat k
      layOut ks ((ks.length : Int) + e)

/-- The shortest text that is read as the same binary number. -/
def text : Decimal → Text
  | notANumber => "nan"
  | infinite negative => signed negative "inf"
  | finite negative digits exponent => signed negative (unsignedText digits exponent)

end Syllogism.Decimal
