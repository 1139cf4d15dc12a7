import Syllogism.Lexicon.Basic
import Syllogism.Text.Search

/-! What a sentence means. -/

namespace Syllogism

/-- The ways to understand a sentence, with the phrases in it as they were written; for a farewell
it is the entry of the lexicon. -/
inductive Reading where
  | farewell (command : Text)
  | question (subject : Text)
  | whoQuestion (who object : Text)
  | statement (subject object : Text)
  deriving DecidableEq, Repr

namespace Lexicon

variable (l : Lexicon)

/-- The two sides of the first copula of the lexicon that stands in the text behind its first
character. Where one side is blank there is no other try. -/
def sides? (t : Text) : Option (Text × Text) :=
  match Text.find? l.copulas 1 t with
  | none => none
  | some (i, copula) =>
    let subject := Text.trim (t.take i)
    let object := Text.trim (t.drop (i + copula.length))
    if subject.isEmpty || object.isEmpty then none else some (subject, object)

def farewell? (t : Text) : Option Reading := (Text.opening? l.farewells t).map .farewell

def question? (t : Text) : Option Reading :=
  (Text.opening? l.questions t).map fun command => .question (Text.trim (t.drop command.length))

/-- Two sides of which the first opens with a word that asks who. -/
def whoQuestion? (t : Text) : Option Reading :=
  match l.sides? t with
  | none => none
  | some (subject, object) =>
    (Text.opening? l.whoWords (Text.dropArticle l.articles subject)).map fun _ =>
      .whoQuestion subject object

def statement? (t : Text) : Option Reading := (l.sides? t).map fun s => .statement s.1 s.2

/-- How a sentence is understood: without the marks that close it, as a farewell, a question, a
question who, or a statement, the first of these that fits. -/
def reading? (sentence : Text) : Option Reading :=
  let t := Text.stripMarks sentence
  (l.farewell? t).or ((l.question? t).or ((l.whoQuestion? t).or (l.statement? t)))

end Lexicon

end Syllogism
