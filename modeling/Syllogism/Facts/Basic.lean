import Syllogism.OrderedMap
import Syllogism.Text.Basic

/-! Facts: each subject with its attributes. -/

namespace Syllogism

/-- Under the key of each subject, its attributes as they were told, in order. -/
abbrev Facts := OrderedMap Text (List Text)

namespace Facts

def attributes (facts : Facts) (k : Text) : List Text := (facts.get? k).getD []

/-- The facts one by one. -/
def pairs (facts : Facts) : List (Text × Text) :=
  facts.entries.flatMap fun e => e.2.map fun a => (e.1, a)

/-- What becomes of a fact that is told: its subject is new, it is known already, or it joins the
attributes of a known subject. -/
inductive Outcome where
  | newSubject
  | known
  | joined
  deriving DecidableEq, Repr

def Outcome.isNews : Outcome → Bool
  | known => false
  | _ => true

variable (key : Text → Text)

/-- A fact is known if its subject has an attribute with the same key. -/
def outcome (facts : Facts) (subject attr : Text) : Outcome :=
  match facts.get? (key subject) with
  | none => .newSubject
  | some attributes =>
    if attributes.any fun a => key a == key attr then .known else .joined

/-- The facts with one more, unless it is known. -/
def tell (facts : Facts) (subject attr : Text) : Facts :=
  match facts.outcome key subject attr with
  | .newSubject => facts.put (key subject) [attr]
  | .known => facts
  | .joined => facts.put (key subject) (facts.attributes (key subject) ++ [attr])

/-- Facts told one after the other, with what became of each. -/
def tellAll (facts : Facts) : List (Text × Text) → Facts × List Outcome
  | [] => (facts, [])
  | (s, a) :: rest =>
    let (after, outcomes) := tellAll (facts.tell key s a) rest
    (after, facts.outcome key s a :: outcomes)

end Facts

end Syllogism
