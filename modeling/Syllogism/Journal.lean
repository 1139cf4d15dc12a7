import Syllogism.Facts.Basic
import Syllogism.Sentence.Reading
import Syllogism.Text.Digit
import Syllogism.Text.Quoted

/-! What the program notes down while it works. -/

namespace Syllogism

inductive Level where
  | debug
  | info
  | warning
  deriving DecidableEq, Repr

/-- Things worth noting, each with what it is about. -/
inductive Event where
  | unguarded
  | told (outcome : Facts.Outcome) (key phrase : Text)
  | saved (subjects : Nat) (path : Text)
  | startedEmpty (path : Text)
  | loaded (subjects : Nat) (path : Text)
  | notUnderstood (sentence : Text)
  | understood (reading : Reading) (sentence : Text)
  | serving (path : Text) (subjects : Nat)
  deriving DecidableEq, Repr

/-- The name that the journal uses. -/
def Reading.name : Reading → Text
  | farewell _ => "goodbye"
  | question _ => "query"
  | whoQuestion _ _ => "inverse"
  | statement _ _ => "statement"

def Reading.subject : Reading → Text
  | farewell command => command
  | question subject => subject
  | whoQuestion who _ => who
  | statement subject _ => subject

/-- The second phrase; empty for a sentence with one phrase. -/
def Reading.object : Reading → Text
  | whoQuestion _ object => object
  | statement _ object => object
  | _ => []

namespace Event

def level : Event → Level
  | unguarded => .warning
  | told .. => .debug
  | notUnderstood _ => .debug
  | understood .. => .debug
  | _ => .info

/-- The part of the program that notes it. -/
def source : Event → Text
  | unguarded => "sillogismi.fact_store"
  | told .. => "sillogismi.fact_store"
  | saved .. => "sillogismi.fact_store"
  | startedEmpty _ => "sillogismi.session"
  | loaded .. => "sillogismi.session"
  | notUnderstood _ => "sillogismi.interpreter"
  | understood .. => "sillogismi.interpreter"
  | serving .. => "sillogismi-mcp"

def subjectsText (n : Nat) : Text := Text.ofNat n ++ Text.of " subjects"

def outcomeText : Facts.Outcome → Text
  | .newSubject => "New subject"
  | .known => "Skipping duplicate"
  | .joined => "Appended"

def message : Event → Text
  | unguarded => "Legacy traversal enabled: queries over cyclic facts will not terminate"
  | told outcome key phrase =>
    outcomeText outcome ++ .char ' ' :: Text.quoted key ++ Text.of " -> " ++ Text.quoted phrase
  | saved subjects path => Text.of "Saved " ++ subjectsText subjects ++ Text.of " to " ++ path
  | startedEmpty path => Text.of "No fact store at " ++ path ++ Text.of ", starting empty"
  | loaded subjects path => Text.of "Loaded " ++ subjectsText subjects ++ Text.of " from " ++ path
  | notUnderstood sentence => Text.of "No rule matched " ++ Text.quoted sentence
  | understood reading sentence =>
    Text.of "Rule " ++ Text.quoted reading.name ++ Text.of " matched " ++ Text.quoted sentence ++
      Text.of ": Clause(subject=" ++ Text.quoted reading.subject ++ Text.of ", obj=" ++
      Text.quoted reading.object ++ [.char ')']
  | serving path subjects =>
    Text.of "sillogismi MCP server started with db=" ++ path ++ Text.of ", subjects=" ++
      Text.ofNat subjects

def levelText : Level → Text
  | .debug => "DEBUG"
  | .info => "INFO"
  | .warning => "WARNING"

/-- One line of the journal. -/
def line (e : Event) : Text :=
  Text.line (levelText e.level ++ .char ':' :: e.source ++ .char ':' :: e.message)

end Event

end Syllogism
