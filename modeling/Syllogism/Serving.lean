import Syllogism.Tool

/-! Serving calls of the tools, all on one notebook. -/

namespace Syllogism

namespace Serving

variable [Host]

/-- The notebook that serves if none was opened before. -/
def defaultNotebook : Act Notebook :=
  Notebook.openAt Notebook.defaultPath Lexicon.italian .guarded

/-- A server that starts: its notebook is open before the first call. -/
def start (setting : Shell.Setting) : Act Notebook := do
  let n ← Shell.openNotebook setting
  Act.note (.serving (← Shell.pathOf setting.path) n.facts.size)
  return n

/-- The notebook that calls work on. It is opened if that was not done before. -/
def notebookOf : Option Notebook → Act Notebook
  | some n => return n
  | none => defaultNotebook

/-- One call. If it fails the notebook stays as it is. -/
def answer (notebook : Option Notebook) (tool : Tool) (w : World) :
    (Except Failure Text × Option Notebook) × World :=
  match (notebookOf notebook).perform w with
  | (.error f, w) => ((.error f, none), w)
  | (.ok n, w) =>
    match (tool.call n).perform w with
    | (.ok (n, v), w) => ((.ok v.text, some n), w)
    | (.error f, w) => ((.error f, some n), w)

def answers (notebook : Option Notebook) :
    (tools : List Tool) → World → List (Except Failure Text) × World
  | [], w => ([], w)
  | tool :: rest, w =>
    let ((reply, notebook), w) := answer notebook tool w
    let (replies, w) := answers notebook rest w
    (reply :: replies, w)

/-- What serving some calls leaves: the status of a start that was not made or the failure of one
that was, and the answers. -/
structure Run where
  status : Except Failure (Option Nat)
  out : Text
  messages : Text
  replies : List (Except Failure Text)
  disk : Disk

/-- Serves calls without a start. -/
def serve (d : Disk) (tools : List Tool) : Run :=
  let (replies, w) := answers none tools (World.on d)
  ⟨.ok none, w.out, [], replies, w.disk⟩

/-- Starts with the arguments of a command line and serves calls. -/
def run (d : Disk) (arguments : List Text) (tools : List Tool) : Run :=
  match Shell.serverSetting arguments with
  | .error leave =>
    let r := leave.run d
    ⟨r.status.map some, r.out, r.messages, [], d⟩
  | .ok setting =>
    match (start setting).perform (World.on d) with
    | (.error f, w) => ⟨.error f, w.out, w.messages setting.verbose, [], w.disk⟩
    | (.ok n, w) =>
      let (replies, w) := answers (some n) tools w
      ⟨.ok none, w.out, w.messages setting.verbose, replies, w.disk⟩

end Serving

end Syllogism
