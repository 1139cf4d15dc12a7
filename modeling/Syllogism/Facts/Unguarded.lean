import Syllogism.Facts.Query

/-! Answers by plain recursion, which reports a node once for every way to it. A limit on the
questions that are open at one time stands in for an end where the links lead round a cycle. -/

namespace Syllogism.Facts

variable (key : Text → Text)

/-- What the subject is, with at most `depth` questions one within the other; `none` if that is too
few. -/
def whatIsWithin (facts : Facts) : (depth : Nat) → (subject : Text) → Option (List Text)
  | 0, _ => none
  | depth + 1, subject =>
    let attributes := facts.attributes (key subject)
    (attributes.mapM (whatIsWithin facts depth)).map fun found => attributes ++ found.flatten

/-- The subjects that have an attribute with key `node`. -/
def holders (facts : Facts) (node : Text) : List Text :=
  (facts.entries.filter fun e => e.2.any fun a => key a == node).map Prod.fst

/-- Who has the attribute, with at most `depth` questions one within the other. -/
def whoIsWithin (facts : Facts) : (depth : Nat) → (attr : Text) → Option (List Text)
  | 0, _ => none
  | depth + 1, attr =>
    let holders := facts.holders key (key attr)
    (holders.mapM fun k => (whoIsWithin facts depth k).map (k :: ·)).map List.flatten

/-- The most questions that may be open at one time, of each kind. -/
structure Room where
  whatIs : Nat
  whoIs : Nat
  deriving DecidableEq, Repr

/-- How questions are to be answered. -/
inductive Mode where
  | guarded
  | unguarded
  deriving DecidableEq, Repr

/-- How questions are answered: by the walk, or by recursion with some room. -/
inductive Manner where
  | guarded
  | unguarded (room : Room)
  deriving DecidableEq, Repr

def Mode.within (room : Room) : Mode → Manner
  | guarded => .guarded
  | unguarded => .unguarded room

/-- Everything that the subject is, and `none` if the recursion goes too deep. -/
def whatIs? (manner : Manner) (facts : Facts) (subject : Text) : Option (List Text) :=
  match manner with
  | .guarded => some (facts.whatIs key subject)
  | .unguarded room => facts.whatIsWithin key room.whatIs subject

/-- Every subject from which the links lead to the attribute, and `none` if the recursion goes too
deep. -/
def whoIs? (manner : Manner) (facts : Facts) (attr : Text) : Option (List Text) :=
  match manner with
  | .guarded => some (facts.whoIs key attr)
  | .unguarded room => facts.whoIsWithin key room.whoIs attr

end Syllogism.Facts
