import Syllogism.Shell.Command

/-! The program: its arguments, its streams, and the part of the real disk that its arguments
name. -/

namespace Syllogism.Main

open Shell

open scoped Host

/-- A text for the system. A half has no character of its own there. -/
def plain (t : Text) : String :=
  String.ofList (t.map fun
    | .char c => c
    | .half _ => '\uFFFD')

def spotText (s : Spot) : String := plain ('/' :: Text.joinWith "/" s)

/-- What lies at a spot, when all before it are directories. -/
def nodeAt (s : Spot) : IO (Option Node) := do
  try
    return some (.file (← IO.FS.readBinFile (spotText s)).toList)
  catch
    | .noFileOrDirectory .. => return none
    | .inappropriateType .. => return some (.directory [])
    | e => throw e

/-- The disk with what lies on the way that names lead. -/
def survey (d : Disk) (s : Spot) : (names : List Text) → IO Disk
  | [] => return d
  | name :: rest => do
    match (d.directory? s).bind fun s => d.step s name with
    | .ok next => survey d next rest
    | .error .missing =>
      match ← nodeAt (s ++ [name]) with
      | some n => survey (d.put (s ++ [name]) n) (s ++ [name]) rest
      | none => return d
    | .error _ => return d

def surveyRoute (d : Disk) (r : Route) : IO Disk :=
  survey d (if r.fromRoot then [] else d.here) r.names

/-- The directory that the program runs in, and what its setting names. -/
def diskFor (setting : Setting) : IO Disk := do
  let here := (Path.ofText (Text.of (← IO.currentDir).toString)).names
  let routes := (setting.path.map fun path => (Path.ofText path).route).toList ++
    (setting.lexicon.map Route.ofText).toList
  if fits : ∀ name ∈ here, Path.unfit? name = none then
    routes.foldlM surveyRoute (Disk.startingAt here fits)
  else throw (IO.userError "the current directory has no name")

/-- A file is written beside its place and moved there. -/
def saveFile (s : Spot) (bytes : Bytes) : IO Unit := do
  let draft := spotText (s.dropLast ++ [Disk.draftName (s.getLast?.getD []) 0])
  IO.FS.writeBinFile draft ⟨bytes.toArray⟩
  IO.FS.rename draft (spotText s)

/-- Carries out on the real disk what a run changed at a spot. -/
partial def saveNode (s : Spot) : (before : Option Node) → (after : Node) → IO Unit
  | some (.file old), .file bytes => do if old ≠ bytes then saveFile s bytes
  | _, .file bytes => saveFile s bytes
  | before, .directory entries => do
    if before.isNone then IO.FS.createDir (spotText s)
    for (name, n) in entries do
      saveNode (s ++ [name]) (before.bind fun b => b.child? name) n

def saveDisk (before after : Disk) : IO Unit := saveNode [] (some before.root) after.root

def emit (out messages : Text) : IO Unit := do
  let stream ← IO.getStdout
  stream.putStr (plain out)
  stream.flush
  (← IO.getStderr).putStr (plain messages)

/-- Performs a step and hands on what it prints and notes. -/
def act {α : Type} (verbose : Bool) (d : Disk) (a : Act α) : IO (Except Failure α × Disk) := do
  let (result, w) := a.perform (World.on d)
  emit w.out (w.messages verbose)
  return (result, w.disk)

/-- A chat with someone who waits for each answer. -/
partial def talk (verbose : Bool) (n : Notebook) (d : Disk) : IO (Except Failure Unit × Disk) := do
  emit prompt []
  match Text.lines (Text.of (← (← IO.getStdin).getLine)) with
  | [] => act verbose d (chatEnd none n)
  | sentence :: _ =>
    match ← act verbose d (chatLine n sentence) with
    | (.ok (n, false), d) => talk verbose n d
    | (.ok (_, true), d) => return (.ok (), d)
    | (.error f, d) => return (.error f, d)

def chat (setting : Setting) (d : Disk) : IO (Except Failure Nat × Disk) := do
  let (ended, d) ← match ← act setting.verbose d (openNotebook setting) with
    | (.ok n, d) => talk setting.verbose n d
    | (.error f, d) => pure (.error f, d)
  match ended with
  | .ok _ => return (.ok 0, d)
  | .error f => act setting.verbose d (excuse f)

def exitCode : Except Failure Nat → IO UInt32
  | .ok status => return status.toUInt32
  | .error f => do
    emit [] (Text.line f.message)
    return 1

def finish (r : Run) : IO UInt32 := do
  emit r.out r.messages
  exitCode r.status

def perform (arguments : List Text) : IO UInt32 := do
  match requestOf arguments with
  | .error leave => finish (leave.run Disk.empty)
  | .ok .version => finish (Request.version.run Disk.empty (.ofText []))
  | .ok (.command setting .chat) =>
    let before ← diskFor setting
    let (status, after) ← chat setting before
    saveDisk before after
    exitCode status
  | .ok (.command setting c) =>
    let before ← diskFor setting
    let r := (Request.command setting c).run before (.ofText [])
    saveDisk before r.disk
    finish r

end Syllogism.Main

def main (args : List String) : IO UInt32 := Syllogism.Main.perform (args.map Syllogism.Text.of)
