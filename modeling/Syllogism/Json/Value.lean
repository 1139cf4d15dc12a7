import Syllogism.Decimal.Basic
import Syllogism.OrderedMap
import Syllogism.Text.Basic

/-! The values that a JSON text stands for. -/

namespace Syllogism

/-- A JSON value. The members of an object stand in the order of their first mention, each name
once. -/
inductive Json where
  | null
  | bool (b : Bool)
  | integer (i : Int)
  | decimal (x : Decimal)
  | string (t : Text)
  | array (items : List Json)
  | object (members : List (Text × Json))
  deriving Inhabited, Repr

namespace Json

/-- The member of that name, if the value is an object and has one. -/
def member? (name : Text) : Json → Option Json
  | object members => OrderedMap.valueIn? name members
  | _ => none

def text? : Json → Option Text
  | string t => some t
  | _ => none

/-- The texts of an array of nothing but strings. -/
def texts? : Json → Option (List Text)
  | array items => items.mapM text?
  | _ => none

/-- An array of strings. -/
def ofTexts (texts : List Text) : Json := array (texts.map string)

/-- An object of some members. -/
def ofMembers (members : List (String × Json)) : Json :=
  object (members.map fun m => (Text.of m.1, m.2))

end Json

end Syllogism
