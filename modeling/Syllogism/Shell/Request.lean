import Syllogism.Facts.Unguarded
import Syllogism.Notebook
import Syllogism.Shell.Help
import Syllogism.Shell.Options

/-! The commands and what they are asked. -/

namespace Syllogism.Shell

/-- What all commands on facts are told: the path of the facts, which is missing if its option was
given without a value, the file of the lexicon if there is one, how questions are answered, and
whether all events are shown. -/
structure Setting where
  path : Option Text
  lexicon : Option Text
  mode : Facts.Mode
  verbose : Bool
  deriving DecidableEq, Repr

inductive Command where
  | chat
  | tell (sentences : List Text)
  | query (subject : Text) (json : Bool)
  | who (attr : Text) (json : Bool)
  | dump (pairs : Bool)
  deriving DecidableEq, Repr

inductive Request where
  | version
  | command (setting : Setting) (command : Command)
  deriving DecidableEq, Repr

/-- An option without a value. -/
def flag (spellings : List Text) : Flag := ⟨spellings, false, false⟩

/-- An option with a value. -/
def setting (spellings : List Text) : Flag := ⟨spellings, true, false⟩

def helpFlag : Flag := ⟨["-h", "--help"], false, true⟩

def lexiconFlags : List Flag :=
  [setting ["--lexicon"], flag ["--legacy-traversal"], flag ["--verbose", "-v"]]

/-- The options of all commands on facts. -/
def commonFlags : List Flag := helpFlag :: setting ["--db", "-d"] :: lexiconFlags

def program : Text := "sillogismi"

/-- Each command by name, with what it may be given. -/
def commands : List (Text × List Text × List Flag × Option Operand) :=
  [("chat", Help.chat, commonFlags, none),
    ("tell", Help.tell, commonFlags, some ⟨"sentences", .many, true⟩),
    ("query", Help.query, commonFlags ++ [flag ["--json"]], some ⟨"subject", .one, true⟩),
    ("who", Help.who, commonFlags ++ [flag ["--json"]], some ⟨"attribute", .one, true⟩),
    ("dump", Help.dump, commonFlags ++ [flag ["--edges"]], none),
    ("version", Help.version, [helpFlag], none)]

def helpText (lines : List Text) : Text := lines.flatMap Text.line

def mainGrammar : Grammar where
  program := program
  help := helpText Help.overview
  flags := [helpFlag]
  operand := some ⟨"command", .rest, false⟩

def grammar? (name : Text) : Option Grammar :=
  (commands.find? fun c => c.1 == name).map fun c =>
    { program := program ++ .char ' ' :: name
      help := helpText c.2.1
      flags := c.2.2.1
      operand := c.2.2.2 }

def invalidChoice (name : Text) : Leave :=
  .misuse program (Text.of "argument command: invalid choice: " ++ Text.quoted name ++
    Text.of " (choose from " ++ Text.joinWith ", " (commands.map fun c => Text.quoted c.1) ++
    [.char ')'])

/-- The setting that the options give. -/
def settingOf (a : Arguments) : Setting where
  path := (a.last? "--db").getD (some Notebook.defaultPath)
  lexicon := (a.last? "--lexicon").join
  mode := if a.has "--legacy-traversal" then .unguarded else .guarded
  verbose := a.has "--verbose"

/-- What the command of that name is asked. -/
def request (name : Text) (a : Arguments) : Request :=
  let word := a.words.head?.getD []
  if name = Text.of "version" then .version
  else
    .command (settingOf a)
      (if name = Text.of "tell" then .tell a.words
      else if name = Text.of "query" then .query word (a.has "--json")
      else if name = Text.of "who" then .who word (a.has "--json")
      else if name = Text.of "dump" then .dump (a.has "--edges")
      else .chat)

/-- What a command line asks for. Arguments without a place are complained about last, and a command
line without a command asks for help. -/
def requestOf (arguments : List Text) : Except Leave Request := do
  let a ← mainGrammar.parse arguments
  match a.words with
  | [] =>
    if a.extras.isEmpty then throw (.help mainGrammar.help)
    else throw (unrecognized program a.extras)
  | name :: rest =>
    match grammar? name with
    | none => throw (invalidChoice name)
    | some g =>
      let b ← g.parse rest
      let extras := a.extras ++ b.extras
      if extras.isEmpty then return request name b else throw (unrecognized program extras)

def serverGrammar : Grammar where
  program := "sillogismi-mcp"
  help := helpText Help.server
  flags := helpFlag :: setting ["--db"] :: lexiconFlags
  operand := none

/-- What the command line of the server says. -/
def serverSetting (arguments : List Text) : Except Leave Setting := do
  let a ← serverGrammar.parse arguments
  if a.extras.isEmpty then return settingOf a
  else throw (unrecognized serverGrammar.program a.extras)

end Syllogism.Shell
