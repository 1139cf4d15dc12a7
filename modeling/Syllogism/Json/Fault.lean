import Syllogism.Text.Digit

/-! Why a text is not JSON, and where. -/

namespace Syllogism.Json

/-- What is wrong at a place. -/
inductive Reason where
  | byteOrderMark
  | value
  | name
  | colon
  | comma
  | extra
  | openString
  | control
  | escape
  | codeEscape
  deriving DecidableEq, Repr

def Reason.message : Reason → Text
  | byteOrderMark => "Unexpected UTF-8 BOM (decode using utf-8-sig)"
  | value => "Expecting value"
  | name => "Expecting property name enclosed in double quotes"
  | colon => "Expecting ':' delimiter"
  | comma => "Expecting ',' delimiter"
  | extra => "Extra data"
  | openString => "Unterminated string starting at"
  | control => "Invalid control character at"
  | escape => "Invalid \\escape"
  | codeEscape => "Invalid \\uXXXX escape"

/-- Why reading stops. A fault is placed by the number of characters that are left there. -/
inductive Stop where
  | fault (reason : Reason) (left : Nat)
  | longInteger (digits : Nat)
  | deepNesting
  deriving DecidableEq, Repr

/-- An index in a text, with its line and its column, both counted from one. -/
structure Place where
  line : Nat
  column : Nat
  index : Nat
  deriving DecidableEq, Repr

def Place.at (t : Text) (index : Nat) : Place :=
  let before := t.take index
  ⟨before.count (.char '\n') + 1, (before.reverse.takeWhile (· != .char '\n')).length + 1, index⟩

/-- Why a text was not read: a fault in its syntax, an integer with too many digits, or more brackets
than there is room for. -/
inductive Failure where
  | syntaxFault (reason : Reason) (place : Place)
  | longInteger (digits : Nat)
  | deepNesting
  deriving DecidableEq, Repr

/-- The most digits that an integer may have. -/
def digitLimit : Nat := 4300

def Failure.message : Failure → Text
  | syntaxFault reason place =>
    reason.message ++ Text.of ": line " ++ Text.ofNat place.line ++ Text.of " column " ++
      Text.ofNat place.column ++ Text.of " (char " ++ Text.ofNat place.index ++ [.char ')']
  | longInteger digits =>
    Text.of "Exceeds the limit (" ++ Text.ofNat digitLimit ++
      Text.of " digits) for integer string conversion: value has " ++ Text.ofNat digits ++
      Text.of " digits; use sys.set_int_max_str_digits() to increase the limit"
  | deepNesting => "maximum recursion depth exceeded"

/-- The failure of a reader of `t` that stopped. -/
def Stop.failure (t : Text) : Stop → Failure
  | fault reason left => .syntaxFault reason (Place.at t (t.length - left))
  | longInteger digits => .longInteger digits
  | deepNesting => .deepNesting

end Syllogism.Json
