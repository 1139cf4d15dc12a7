import Syllogism.Facts.Basic
import Syllogism.Walk

/-! What follows from the facts. Attributes are subjects in their turn, so answers go as far as the
links lead; a node is reported once. -/

namespace Syllogism.Facts

variable (key : Text → Text)

/-- From the key of each subject to the keys of its attributes. -/
def forward (facts : Facts) : Links Text := facts.mapValues fun attributes => attributes.map key

/-- The phrases whose key is not in `seen` and was not the key of an earlier one. -/
def firstMentions (seen : List Text) : List Text → List Text
  | [] => []
  | a :: rest =>
    if key a ∈ seen then firstMentions seen rest
    else a :: firstMentions (key a :: seen) rest

/-- Everything that the subject is: the attributes of every node that the links lead to, in the
order of the walk. -/
def whatIs (facts : Facts) (subject : Text) : List Text :=
  firstMentions key [] ((Walk.order (forward key facts) [] [key subject]).flatMap facts.attributes)

def addHolder (index : Links Text) (node holder : Text) : Links Text :=
  if holder ∈ Walk.next index node then index
  else index.put node (Walk.next index node ++ [holder])

/-- From the key of each attribute to the subjects that have it. -/
def backward (facts : Facts) : Links Text :=
  facts.pairs.foldl (fun index p => addHolder index (key p.2) p.1) OrderedMap.empty

/-- Every subject from which the links lead to the attribute, in the order of the walk back. -/
def whoIs (facts : Facts) (attr : Text) : List Text :=
  let links := backward key facts
  Walk.order links [] (Walk.next links (key attr))

end Syllogism.Facts
