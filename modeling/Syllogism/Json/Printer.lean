import Syllogism.Decimal.Shortest
import Syllogism.Json.Value
import Syllogism.Text.Quoted

/-! JSON texts with one item per line. Characters stand for themselves, but for the quote, the
backslash and the controls. -/

namespace Syllogism.Json

def escape (c : CodePoint) : Text :=
  if c = '"' then "\\\"" else if c = '\\' then "\\\\"
  else if c = '\n' then "\\n" else if c = '\r' then "\\r" else if c = '\t' then "\\t"
  else if c = '\x08' then "\\b" else if c = '\x0c' then "\\f"
  else if c.code < 0x20 then '\\' :: 'u' :: Text.hex 4 c.code
  else [c]

def literal (t : Text) : Text := '"' :: (t.flatMap escape ++ [.char '"'])

/-- The start of a line at some depth, two spaces for each level. -/
def margin (level : Nat) : Text := '\n' :: List.replicate (2 * level) ' '

/-- The items between brackets, each on a line of its own; without items the brackets alone. -/
def block (opening closing : CodePoint) (level : Nat) : List Text → Text
  | [] => [opening, closing]
  | items =>
    opening :: margin (level + 1) ++ List.intercalate (.char ',' :: margin (level + 1)) items ++
      margin level ++ [closing]

def decimalText : Decimal → Text
  | .notANumber => "NaN"
  | .infinite negative => Decimal.signed negative "Infinity"
  | x => x.text

mutual

def textAt (level : Nat) : Json → Text
  | null => "null"
  | bool true => "true"
  | bool false => "false"
  | integer i => Text.ofInt i
  | decimal x => decimalText x
  | string t => literal t
  | array items => block '[' ']' level (itemTexts (level + 1) items)
  | object members => block '\x7b' '\x7d' level (memberTexts (level + 1) members)

def itemTexts (level : Nat) : List Json → List Text
  | [] => []
  | v :: rest => textAt level v :: itemTexts level rest

def memberTexts (level : Nat) : List (Text × Json) → List Text
  | [] => []
  | (name, v) :: rest =>
    (literal name ++ Text.of ": " ++ textAt level v) :: memberTexts level rest

end

/-- The text of a value, without a line feed at the end. -/
def text (v : Json) : Text := textAt 0 v

end Syllogism.Json
