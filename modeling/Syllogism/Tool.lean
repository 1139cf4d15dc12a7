import Syllogism.Shell.Command

/-! The tools of the server, each of which answers with a JSON value. -/

namespace Syllogism

/-- The tools with their arguments. -/
inductive Tool where
  | process (sentence : Text)
  | query (subject : Text)
  | inverse (attr : Text)
  | save
  deriving DecidableEq, Repr

namespace Tool

variable [Host]

def count (n : Nat) : Json := .integer n

/-- The notebook after a call, and the answer. -/
def call (n : Notebook) : Tool → Act (Notebook × Json)
  | process sentence => do
    let (n, answer) ← n.answer sentence
    return (n, .ofMembers [("sentence", .string sentence), ("answer", .string answer),
      ("ended", .bool (n.isOver answer)), ("subjects", count n.facts.size)])
  | query subject => do
    let found ← n.whatIs subject
    return (n, .ofMembers [("subject", .string subject),
      ("key", .string (n.lexicon.key subject)), ("found", count found.length),
      ("results", .ofTexts found)])
  | inverse attr => do
    let found ← n.whoIs attr
    return (n, .ofMembers [("attribute", .string attr), ("found", count found.length),
      ("results", .ofTexts found)])
  | save => do
    n.save
    return (n, .ofMembers [("saved", .bool true), ("path", .string n.path.text),
      ("subjects", count n.facts.size)])

end Tool

end Syllogism
