import Syllogism.Text.Basic

/-! White space, and what is cut off at the two ends of a text. -/

namespace Syllogism.Text

/-- The 29 characters of white space. -/
def isBlank (c : CodePoint) : Bool :=
  let n := c.code
  (0x09 ≤ n && n ≤ 0x0D) || (0x1C ≤ n && n ≤ 0x20) || n == 0x85 || n == 0xA0 || n == 0x1680 ||
    (0x2000 ≤ n && n ≤ 0x200A) || n == 0x2028 || n == 0x2029 || n == 0x202F || n == 0x205F ||
    n == 0x3000

def trimStart (t : Text) : Text := t.dropWhile isBlank

def trimEnd (t : Text) : Text := dropEndWhile isBlank t

def trim (t : Text) : Text := trimEnd (trimStart t)

/-- Nothing but white space. -/
def blank (t : Text) : Bool := t.all isBlank

/-- The marks that close a sentence. -/
def isMark (c : CodePoint) : Bool := c == '.' || c == '?'

/-- On a text read backwards: as long as a mark comes first, it goes, with the white space behind
it. -/
def dropMarks : Text → Text
  | [] => []
  | c :: rest => if isMark c then dropMarks (rest.dropWhile isBlank) else c :: rest
termination_by t => t.length
decreasing_by
  have := (List.dropWhile_suffix (l := rest) isBlank).length_le
  simp only [List.length_cons]
  omega

/-- The trimmed text without the marks that close it. -/
def stripMarks (t : Text) : Text := (dropMarks (trim t).reverse).reverse

end Syllogism.Text
