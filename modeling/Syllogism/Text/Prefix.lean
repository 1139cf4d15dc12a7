import Syllogism.Text.Fold

/-! Openings of a text, compared without regard to case. -/

namespace Syllogism.Text

/-- The slice of `t` as long as `p` folds to what `p` folds to. So `t.drop p.length` is what
follows the opening, also where folding changes lengths. An empty opening is none. -/
def opensWith (t p : Text) : Bool :=
  !p.isEmpty && p.length ≤ t.length && fold (t.take p.length) == fold p

/-- The first of the openings that `t` has. -/
def opening? (openings : List Text) (t : Text) : Option Text :=
  openings.find? fun p => opensWith t p

end Syllogism.Text
