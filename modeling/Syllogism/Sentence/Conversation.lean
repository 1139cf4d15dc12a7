import Syllogism.Facts.Unguarded
import Syllogism.Journal

/-! Answering sentences. -/

namespace Syllogism

/-- How sentences are understood, how phrases are told apart, and how questions are answered. -/
structure Conversation where
  lexicon : Lexicon
  key : Text → Text
  manner : Facts.Manner

/-- What one sentence brings: the facts after it, what is noted, whether it says farewell, and the
answer, which is missing if a question goes too deep. -/
structure Response where
  facts : Facts
  events : List Event
  farewell : Bool
  answer : Option Text

namespace Conversation

variable (c : Conversation)

/-- What was found, one item per line, and the given answer if that is nothing. -/
def report (found : List Text) (nothing : Text) : Text :=
  if found.isEmpty then nothing else Text.joinLines found

/-- The response to a sentence that is understood. -/
def respondTo (facts : Facts) : Reading → Response
  | .farewell _ => ⟨facts, [], true, some c.lexicon.replies.goodbye⟩
  | .question subject =>
    ⟨facts, [], false,
      (facts.whatIs? c.key c.manner subject).map fun found => report found c.lexicon.replies.unknown⟩
  | .whoQuestion _ object =>
    ⟨facts, [], false,
      (facts.whoIs? c.key c.manner object).map fun found => report found c.lexicon.replies.dontKnow⟩
  | .statement subject object =>
    ⟨facts.tell c.key subject object,
      [.told (facts.outcome c.key subject object) (c.key subject) object], false,
      some c.lexicon.replies.ok⟩

def respond (facts : Facts) (sentence : Text) : Response :=
  if Text.blank sentence then ⟨facts, [], false, some c.lexicon.replies.empty⟩
  else
    match c.lexicon.reading? sentence with
    | none => ⟨facts, [.notUnderstood sentence], false, some c.lexicon.replies.notUnderstood⟩
    | some reading =>
      let r := c.respondTo facts reading
      { r with events := .understood reading sentence :: r.events }

end Conversation

end Syllogism
