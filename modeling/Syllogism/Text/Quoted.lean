import Syllogism.Text.Printable

/-! A text between quotes, on one line and with nothing that does not show. -/

namespace Syllogism.Text

def hexDigit (n : Nat) : CodePoint := Nat.digitChar (n % 16)

/-- The last `width` hexadecimal digits of `n`. -/
def hex : (width : Nat) → (n : Nat) → Text
  | 0, _ => []
  | width + 1, n => hex width (n / 16) ++ [hexDigit n]

/-- Double quotes only where they save escaping single ones. -/
def quoteMark (t : Text) : CodePoint := if t.contains '\'' && !t.contains '"' then '"' else '\''

def quotedChar (mark c : CodePoint) : Text :=
  if c = mark || c = '\\' then ['\\', c]
  else if c = '\n' then ['\\', 'n']
  else if c = '\r' then ['\\', 'r']
  else if c = '\t' then ['\\', 't']
  else if isPrintable c then [c]
  else if c.code < 0x100 then '\\' :: 'x' :: hex 2 c.code
  else if c.code < 0x10000 then '\\' :: 'u' :: hex 4 c.code
  else '\\' :: 'U' :: hex 8 c.code

def quoted (t : Text) : Text :=
  let mark := quoteMark t
  mark :: t.flatMap (quotedChar mark) ++ [mark]

end Syllogism.Text
