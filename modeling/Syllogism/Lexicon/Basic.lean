import Syllogism.Text.Article
import Syllogism.Text.Upper

/-! The words of a language that the program knows, and its answers. -/

namespace Syllogism

/-- The key of a phrase as it stands: trimmed, in capitals. -/
def plainKey (phrase : Text) : Text := Text.upper (Text.trim phrase)

/-- The answers that do not depend on the facts. -/
structure Replies where
  empty : Text
  goodbye : Text
  unknown : Text
  notUnderstood : Text
  dontKnow : Text
  ok : Text
  deriving DecidableEq, Repr

/-- Word lists in order of precedence: of two entries that fit, the earlier one counts. -/
structure Lexicon where
  language : Text
  articles : List Text
  copulas : List Text
  farewells : List Text
  questions : List Text
  whoWords : List Text
  replies : Replies
  deriving DecidableEq, Repr

/-- The key of a phrase: without its article, trimmed, in capitals. -/
def Lexicon.key (l : Lexicon) (phrase : Text) : Text :=
  plainKey (Text.dropArticle l.articles phrase)

end Syllogism
