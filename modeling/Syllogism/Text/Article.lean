import Syllogism.Text.Blank
import Syllogism.Text.Prefix

/-! The article at the head of a phrase. -/

namespace Syllogism.Text

def isApostrophe (c : CodePoint) : Bool := c == '\'' || c == '’'

/-- An article that opens `t` is a word of its own: it is elided, or white space follows it. -/
def standsAlone (t article : Text) : Bool :=
  article.getLast?.any isApostrophe || (t.drop article.length).head?.any isBlank

/-- The article is the first word of `t`. -/
def hasArticle (t article : Text) : Bool := opensWith t article && standsAlone t article

/-- The trimmed phrase without the first of the articles that it has. A phrase that is nothing but
the article stays whole. -/
def dropArticle (articles : List Text) (t : Text) : Text :=
  match articles.find? fun a => hasArticle t a with
  | none => trim t
  | some a =>
    let rest := trim (t.drop a.length)
    if rest.isEmpty then trim t else rest

end Syllogism.Text
