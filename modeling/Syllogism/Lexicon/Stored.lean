import Syllogism.Json.Reader
import Syllogism.Json.Shown
import Syllogism.Lexicon.Basic
import Syllogism.Text.Utf8

/-! Lexicons as JSON: an object with the word lists and, under `responses`, the answers. Members
that are not listed here do not matter. -/

namespace Syllogism.Lexicon

/-- Why a value is no lexicon. -/
inductive Fault where
  | notObject
  | badWords (field : Text)
  | badReplies
  | missingReplies (names : List Text)
  | notJson (file : Text) (reason : Json.Reason) (place : Json.Place)
  deriving DecidableEq, Repr

/-- Why a lexicon was not read: it is at fault, its file is not UTF-8, or the reader of JSON met a
limit of its own. -/
inductive Unread where
  | faulty (fault : Fault)
  | notUtf8 (fault : Utf8.Fault)
  | longInteger (digits : Nat)
  | deepNesting
  deriving DecidableEq, Repr

def Fault.message : Fault → Text
  | notObject => "lexicon must be a JSON object"
  | badWords field =>
    Text.of "lexicon field '" ++ field ++ Text.of "' must be a list of non-empty strings"
  | badReplies => "lexicon field 'responses' must be an object"
  | missingReplies names => Text.of "lexicon responses missing: " ++ Text.joinWith ", " names
  | notJson file reason place =>
    Text.of "lexicon file " ++ file ++ Text.of " is not valid JSON: " ++
      (Json.Failure.syntaxFault reason place).message

/-- The word list of a field. -/
def wordsOf (v : Json) (field : String) : Except Fault (List Text) :=
  match (v.member? field).bind Json.texts? with
  | some words =>
    if words.all fun w => !w.isEmpty then .ok words else .error (.badWords field)
  | none => .error (.badWords field)

def replyNames : List Text := ["empty", "goodbye", "unknown", "not_understood", "dont_know", "ok"]

def replyOf? (v : Json) (name : Text) : Option Text := (v.member? name).bind Json.text?

def repliesOf (v : Json) : Except Fault Replies :=
  match v.member? "responses" with
  | some (.object members) =>
    let replies := Json.object members
    match replyNames.filterMap (replyOf? replies) with
    | [empty, goodbye, unknown, notUnderstood, dontKnow, ok] =>
      .ok ⟨empty, goodbye, unknown, notUnderstood, dontKnow, ok⟩
    | _ => .error (.missingReplies (replyNames.filter fun n => (replyOf? replies n).isNone))
  | _ => .error .badReplies

/-- The first fault counts: the word lists in this order, then the answers. The language may be any
value. -/
def ofJson : Json → Except Fault Lexicon
  | .object members => do
    let v := Json.object members
    let articles ← wordsOf v "articles"
    let copulas ← wordsOf v "predicates"
    let farewells ← wordsOf v "quit_commands"
    let questions ← wordsOf v "query_commands"
    let whoWords ← wordsOf v "inverse_query_commands"
    let replies ← repliesOf v
    let language := ((v.member? "language").map Json.shown).getD []
    return { language, articles, copulas, farewells, questions, whoWords, replies }
  | _ => .error .notObject

/-- One kind of line end: a carriage return, also with a line feed behind it, becomes a line
feed. -/
def unifyLineEnds : Text → Text
  | [] => []
  | .char '\r' :: .char '\n' :: rest => '\n' :: unifyLineEnds rest
  | .char '\r' :: rest => '\n' :: unifyLineEnds rest
  | c :: rest => c :: unifyLineEnds rest

/-- The lexicon that a file of that name holds, with room for so many brackets that are open at one
place. -/
def ofFile (room : Nat) (file : Text) (bytes : Bytes) : Except Unread Lexicon :=
  match Utf8.decode bytes with
  | .error fault => .error (.notUtf8 fault)
  | .ok t =>
    match Json.read room (unifyLineEnds t) with
    | .error (.syntaxFault reason place) => .error (.faulty (.notJson file reason place))
    | .error (.longInteger digits) => .error (.longInteger digits)
    | .error .deepNesting => .error .deepNesting
    | .ok v => (ofJson v).mapError .faulty

end Syllogism.Lexicon
