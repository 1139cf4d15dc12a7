import Syllogism.Text.Basic

/-! Case maps, written as runs of letters whose images lie at one distance. -/

namespace Syllogism.Text

/-- The letters first, first + step, …, last; `image` is the image of the first one, and the others
keep their distance from it. -/
structure Run where
  first : Nat
  last : Nat
  step : Nat
  image : Nat
  deriving DecidableEq, Repr

def Run.image? (r : Run) (n : Nat) : Option Nat :=
  if n ≤ r.last ∧ (n - r.first) % r.step = 0 then some (r.image + (n - r.first)) else none

/-- The image of `n` under runs in ascending order: past the first that starts above `n` none can
hold it. -/
def imageIn? : List Run → Nat → Option Nat
  | [], _ => none
  | r :: rest, n => if n < r.first then none else (r.image? n).or (imageIn? rest n)

/-- The spelling of `n` in a list in ascending order. -/
def spellingIn? : List (Nat × List Nat) → Nat → Option (List Nat)
  | [], _ => none
  | (m, spelling) :: rest, n =>
    if n < m then none else if n = m then some spelling else spellingIn? rest n

structure CaseMap where
  runs : List Run
  spellings : List (Nat × List Nat)

namespace CaseMap

/-- The image of one character; a character that the map does not list is its own image. -/
def apply (m : CaseMap) (c : CodePoint) : Text :=
  match imageIn? m.runs c.code with
  | some n => [.ofCode n]
  | none =>
    match spellingIn? m.spellings c.code with
    | some ns => ns.map .ofCode
    | none => [c]

def map (m : CaseMap) (t : Text) : Text := t.flatMap m.apply

@[simp] theorem map_nil (m : CaseMap) : m.map [] = [] := rfl

@[simp] theorem map_cons (m : CaseMap) (c : CodePoint) (t : Text) :
    m.map (c :: t) = m.apply c ++ m.map t := rfl

theorem map_append (m : CaseMap) (s t : Text) : m.map (s ++ t) = m.map s ++ m.map t :=
  List.flatMap_append

end CaseMap

end Syllogism.Text
