import Syllogism.Notebook
import Syllogism.Shell.Request

/-! Running the commands. -/

namespace Syllogism.Shell

def versionText : Text := "sillogismi 1.0.0"

def prompt : Text := "> "

/-- Standard input: the lines that it hands over, and the fault if it then breaks off at bytes that
are no UTF-8. -/
structure Input where
  lines : List Text
  fault : Option Utf8.Fault

def Input.ofText (t : Text) : Input := ⟨Text.lines t, none⟩

variable [Host]

/-- Prints a text and then the end of its line. -/
def printLine (t : Text) : Act Unit := Act.print (Text.line t)

def printLines : List Text → Act Unit
  | [] => return ()
  | t :: rest => do
    printLine t
    printLines rest

/-- The lexicon of a file. -/
def readLexicon (file : Text) : Act Lexicon := do
  Act.submit file
  let bytes ← Act.granted [file] ((← Act.disk).read (Route.ofText file))
  match Lexicon.ofFile Host.lexiconRoom file bytes with
  | .error e => Act.fail (.ofLexicon e)
  | .ok l => return l

/-- The lexicon of the named file; without a name, and with an empty one, the Italian one. -/
def lexiconOf : Option Text → Act Lexicon
  | none => return Lexicon.italian
  | some [] => return Lexicon.italian
  | some file => readLexicon file

def pathOf : Option Text → Act Text
  | none => Act.fail .noPath
  | some path => return path

def openNotebook (setting : Setting) : Act Notebook := do
  let l ← lexiconOf setting.lexicon
  Notebook.openAt (← pathOf setting.path) l setting.mode

/-- One line of a chat: the notebook after it, and whether the chat is over. -/
def chatLine (n : Notebook) (sentence : Text) : Act (Notebook × Bool) := do
  let (n, answer) ← n.answer sentence
  printLine answer
  return (n, n.isOver answer)

/-- The end of a chat without a farewell. Bytes that are no UTF-8 are no end. -/
def chatEnd (fault : Option Utf8.Fault) (n : Notebook) : Act Unit :=
  match fault with
  | some fault => Act.fail (.notUtf8 fault)
  | none => do
    n.save
    printLine []

/-- Asks for a line, answers it, and so on until the farewell or the end of the lines. The result is
the notebook after the last answer. -/
def chat (fault : Option Utf8.Fault) (n : Notebook) : (lines : List Text) → Act Notebook
  | [] => do
    Act.print prompt
    chatEnd fault n
    return n
  | sentence :: rest => do
    Act.print prompt
    let (n, ended) ← chatLine n sentence
    if ended then return n else chat fault n rest

/-- Answers the sentences up to the farewell; without one, saves at the end. The result is the
notebook after the last answer. -/
def tell (n : Notebook) : (sentences : List Text) → Act Notebook
  | [] => do
    n.save
    return n
  | sentence :: rest => do
    let (n, ended) ← chatLine n sentence
    if ended then return n else tell n rest

/-- The results under the name and the text of what was asked. -/
def resultsJson (name : String) (asked : Text) (found : List Text) : Json :=
  .ofMembers [(name, .string asked), ("results", .ofTexts found)]

/-- Prints what was found, as JSON or one item per line; the status tells whether that is
anything. -/
def report (name : String) (asked nothing : Text) (json : Bool) (found : List Text) : Act Nat := do
  if found.isEmpty && !json then Act.complain nothing
  if json then printLine (resultsJson name asked found).text
  else printLines found
  return if found.isEmpty then 1 else 0

def pairLine (p : Text × Text) : Text := p.1 ++ Text.of " -> " ++ p.2

def Command.run (setting : Setting) (input : Input) : Command → Act Nat
  | chat => do
    let _ ← Shell.chat input.fault (← openNotebook setting) input.lines
    return 0
  | tell sentences => do
    let _ ← Shell.tell (← openNotebook setting) sentences
    return 0
  | query subject json => do
    let n ← openNotebook setting
    report "subject" subject n.lexicon.replies.unknown json (← n.whatIs subject)
  | who attr json => do
    let n ← openNotebook setting
    report "attribute" attr n.lexicon.replies.dontKnow json (← n.whoIs attr)
  | dump pairs => do
    let n ← openNotebook setting
    if pairs then printLines (n.facts.pairs.map pairLine)
    else
      Notebook.requireWritable n.facts
      printLine n.facts.text
    return 0

/-- What a run leaves: its status or the failure that ends it, both streams, and the disk. -/
structure Run where
  status : Except Failure Nat
  out : Text
  messages : Text
  disk : Disk

/-- A run that leaves without doing anything. -/
def Leave.run (d : Disk) : Leave → Run
  | help t => ⟨.ok 0, t, [], d⟩
  | misuse program message =>
    ⟨.ok 2, [], Text.line (program ++ Text.of ": error: " ++ message), d⟩

/-- What a failure comes to: a line about it and the status 1 if it is reported. -/
def excuse (f : Failure) : Act Nat := do
  if f.isReported then
    Act.complain (Text.of "Error: " ++ f.message)
    return 1
  else Act.fail f

/-- A step whose reported failures become a line and the status 1. -/
def reporting (a : Act Nat) : Act Nat := tryCatch a excuse

def Request.run (d : Disk) (input : Input) : Request → Run
  | version => ⟨.ok 0, Text.line versionText, [], d⟩
  | command setting c =>
    let (status, w) := (reporting (c.run setting input)).perform (World.on d)
    ⟨status, w.out, w.messages setting.verbose, w.disk⟩

/-- A run of the program on a disk, with its arguments and its standard input. -/
def run (d : Disk) (arguments : List Text) (input : Input) : Run :=
  match requestOf arguments with
  | .error leave => leave.run d
  | .ok request => request.run d input

end Syllogism.Shell
