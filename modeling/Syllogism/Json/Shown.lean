import Syllogism.Decimal.Shortest
import Syllogism.Json.Value
import Syllogism.Text.Quoted

/-! A value on one line, for a reader: a string as it is, but quoted inside lists and objects. -/

namespace Syllogism.Json

mutual

def inner : Json → Text
  | null => "None"
  | bool true => "True"
  | bool false => "False"
  | integer i => Text.ofInt i
  | decimal x => x.text
  | string t => Text.quoted t
  | array items => '[' :: (Text.joinWith ", " (innerItems items) ++ [.char ']'])
  | object members => '\x7b' :: (Text.joinWith ", " (innerMembers members) ++ [.char '\x7d'])

def innerItems : List Json → List Text
  | [] => []
  | v :: rest => inner v :: innerItems rest

def innerMembers : List (Text × Json) → List Text
  | [] => []
  | (name, v) :: rest =>
    (Text.quoted name ++ Text.of ": " ++ inner v) :: innerMembers rest

end

def shown : Json → Text
  | string t => t
  | v => inner v

/-- What kind of value it is, in a word. -/
def kind : Json → Text
  | null => "NoneType"
  | bool _ => "bool"
  | integer _ => "int"
  | decimal _ => "float"
  | string _ => "str"
  | array _ => "list"
  | object _ => "dict"

end Syllogism.Json
