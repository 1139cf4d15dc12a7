import Syllogism.Text.CodePoint

/-! Texts are lists of code points and files are lists of bytes; every index and length counts one
of these. -/

namespace Syllogism

abbrev Text := List CodePoint

abbrev Bytes := List UInt8

namespace Text

/-- The characters of a string. -/
def of (s : String) : Text := s.toList.map .char

instance : Coe String Text := ⟨of⟩

/-- The order of texts by their codes: `s` comes before `t` or is `t`. -/
def precedes : (s t : Text) → Bool
  | [], _ => true
  | _ :: _, [] => false
  | a :: s, b :: t => a.code < b.code || (a == b && precedes s t)

/-- One item per line, without a line feed at the end. -/
def joinLines (items : List Text) : Text := List.intercalate ['\n'] items

/-- One line, closed by a line feed. -/
def line (t : Text) : Text := t ++ [.char '\n']

/-- The items with a separator between any two of them. -/
def joinWith (separator : String) (items : List Text) : Text :=
  List.intercalate (of separator) items

/-- The lines of a stream. Only a line feed ends a line, and what follows the last one is a line
of its own unless it is empty. -/
def lines : Text → List Text
  | [] => []
  | .char '\n' :: rest => [] :: lines rest
  | c :: rest =>
    match lines rest with
    | [] => [[c]]
    | l :: ls => (c :: l) :: ls

/-- The text without its longest ending in which `p` holds throughout. -/
def dropEndWhile (p : CodePoint → Bool) (t : Text) : Text := (t.reverse.dropWhile p).reverse

end Text

end Syllogism
