import Syllogism.Facts.Basic
import Syllogism.Json.Printer
import Syllogism.Json.Reader
import Syllogism.Json.Shown
import Syllogism.Text.Utf8

/-! Facts as a JSON object in UTF-8: each subject with the array of its attributes. -/

namespace Syllogism.Facts

def toJson (facts : Facts) : Json :=
  .object (facts.entries.map fun e => (e.1, Json.ofTexts e.2))

def text (facts : Facts) : Text := facts.toJson.text

/-- The first halves in the text; with any, it is no content of a file. -/
def gap? (facts : Facts) : Option Utf8.Gap := Utf8.gap? facts.text

/-- The content of a file with the facts. -/
def bytes (facts : Facts) : Bytes := Utf8.encode facts.text

/-- Why something does not hold facts. -/
inductive Fault where
  | notUtf8 (fault : Utf8.Fault)
  | notJson (reason : Json.Reason) (place : Json.Place)
  | notObject (kind : Text)
  | notTexts (subject : Text)
  deriving DecidableEq, Repr

/-- Why facts were not read: they are malformed, or the reader of JSON met a limit of its own. -/
inductive Unread where
  | malformed (fault : Fault)
  | longInteger (digits : Nat)
  | deepNesting
  deriving DecidableEq, Repr

def Fault.message : Fault → Text
  | notUtf8 fault => Text.of "fact store is not valid UTF-8: " ++ fault.message
  | notJson reason place =>
    Text.of "fact store is not valid JSON: " ++ (Json.Failure.syntaxFault reason place).message
  | notObject kind => Text.of "fact store must be a JSON object, got " ++ kind
  | notTexts subject =>
    Text.of "attributes of " ++ Text.quoted subject ++ Text.of " must be a list of strings"

/-- The attributes of each subject; the first member that is no array of strings is at fault. -/
def entriesOf : List (Text × Json) → Except Fault (List (Text × List Text))
  | [] => .ok []
  | (subject, v) :: rest =>
    match v.texts? with
    | none => .error (.notTexts subject)
    | some attributes => (entriesOf rest).map ((subject, attributes) :: ·)

def ofJson : Json → Except Fault Facts
  | .object members => (entriesOf members).map OrderedMap.ofList
  | v => .error (.notObject v.kind)

/-- The facts in a text, with room for so many brackets that are open at one place. -/
def ofText (room : Nat) (t : Text) : Except Unread Facts :=
  match Json.read room t with
  | .error (.syntaxFault reason place) => .error (.malformed (.notJson reason place))
  | .error (.longInteger digits) => .error (.longInteger digits)
  | .error .deepNesting => .error .deepNesting
  | .ok v => (ofJson v).mapError .malformed

def ofBytes (room : Nat) (bytes : Bytes) : Except Unread Facts :=
  match Utf8.decode (Utf8.dropMark bytes) with
  | .error fault => .error (.malformed (.notUtf8 fault))
  | .ok t => ofText room t

end Syllogism.Facts
