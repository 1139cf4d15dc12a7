import Syllogism.Host
import Syllogism.Journal

/-! What the program does to the world around it: it reads and changes a disk, prints, and takes
notes. -/

namespace Syllogism

/-- What goes to the stream for messages: an event of the journal, or a text of its own. -/
inductive Notice where
  | event (e : Event)
  | message (t : Text)
  deriving DecidableEq, Repr

structure World where
  disk : Disk
  out : Text
  notices : List Notice

/-- A step that can fail. What it did before stays done. -/
abbrev Act (α : Type) := ExceptT Failure (StateM World) α

namespace Act

def disk : Act Disk := return (← get).disk

def setDisk (d : Disk) : Act Unit := modify fun w => { w with disk := d }

def notice (n : Notice) : Act Unit := modify fun w => { w with notices := w.notices ++ [n] }

def note (e : Event) : Act Unit := notice (.event e)

def noteAll (events : List Event) : Act Unit :=
  modify fun w => { w with notices := w.notices ++ events.map .event }

def complain (t : Text) : Act Unit := notice (.message (Text.line t))

def fail {α : Type} (f : Failure) : Act α := throw f

/-- Prints all of a text, or nothing of it if there is something in it that the stream does not
take. -/
def print [Host] (t : Text) : Act Unit :=
  match Host.unprintable? t with
  | none => modify fun w => { w with out := w.out ++ t }
  | some gap => fail (.halves gap)

/-- A text goes to the system, if it can. -/
def submit (t : Text) : Act Unit :=
  match Path.unfit? t with
  | none => return ()
  | some unfit => fail (.ofUnfit unfit)

/-- What the system did with what has these names, or its refusal as a failure. -/
def granted {α : Type} (names : List Text) : Except Disk.Refusal α → Act α
  | .ok a => return a
  | .error refusal => fail (.refused refusal names)

/-- A step with another one that clears up behind it if it fails. -/
def clearing {α : Type} (a : Act α) (clear : Act Unit) : Act α := do
  try a
  catch f =>
    clear
    fail f

/-- Runs a step on a world. -/
def perform {α : Type} (a : Act α) (w : World) : Except Failure α × World := a.run.run w

end Act

/-- A world with a disk, where nothing was printed or noted yet. -/
def World.on (d : Disk) : World := ⟨d, [], []⟩

/-- The stream for messages. Warnings are always shown, other events only on request. -/
def Notice.shown (verbose : Bool) : Notice → Text
  | event e => if verbose || e.level == .warning then e.line else []
  | message t => t

def World.messages (w : World) (verbose : Bool) : Text := w.notices.flatMap (Notice.shown verbose)

end Syllogism
