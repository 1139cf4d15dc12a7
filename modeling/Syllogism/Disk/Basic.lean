import Syllogism.Disk.Node
import Syllogism.Disk.Path

/-! A disk: a tree of directories and files, with one directory to start from. -/

namespace Syllogism

/-- What lies where; `here` is where paths start that do not start at the root. The system gives that
place by its name, so it has one. -/
structure Disk where
  root : Node
  here : Spot
  fits : ∀ name ∈ here, Path.unfit? name = none

namespace Disk

/-- Why the system refuses. -/
inductive Refusal where
  | missing
  | busy
  | taken
  | notDirectory
  | isDirectory
  | nameTooLong
  | noDraftName
  deriving DecidableEq, Repr

/-- The numbers by which the system knows its refusals. -/
def Refusal.number : Refusal → Nat
  | missing => 2
  | busy => 16
  | taken => 17
  | notDirectory => 20
  | isDirectory => 21
  | nameTooLong => 36
  | noDraftName => 17

def Refusal.text : Refusal → Text
  | missing => "No such file or directory"
  | busy => "Device or resource busy"
  | taken => "File exists"
  | notDirectory => "Not a directory"
  | isDirectory => "Is a directory"
  | nameTooLong => "File name too long"
  | noDraftName => "No usable temporary file name found"

/-- A refusal with the names that were asked for, as from where to where. Where all names were tried,
none is told. -/
def Refusal.message (refusal : Refusal) (names : List Text) : Text :=
  Text.of "[Errno " ++ Text.ofNat refusal.number ++ Text.of "] " ++ refusal.text ++
    match refusal with
    | noDraftName => []
    | _ => Text.of ": " ++ Text.joinWith " -> " (names.map Text.quoted)

/-- Nothing but the way to the directory to start from. -/
def startingAt (here : Spot) (fits : ∀ name ∈ here, Path.unfit? name = none) : Disk :=
  ⟨(Node.directory []).put here (.directory []), here, fits⟩

/-- These entries, in the directory that holds everything else, which is the one to start from. -/
def ofEntries (entries : List (Text × Node)) : Disk :=
  ⟨.directory entries, [], List.forall_mem_nil _⟩

def empty : Disk := ofEntries []

/-- The most bytes of a name. -/
def nameLimit : Nat := 255

/-- The most bytes of a path. -/
def pathLimit : Nat := 4095

def nameFits (name : Text) : Bool := (Path.bytes name).length ≤ nameLimit

def node? (d : Disk) (s : Spot) : Option Node := d.root.at? s

def put (d : Disk) (s : Spot) (n : Node) : Disk := { d with root := d.root.put s n }

def remove (d : Disk) (s : Spot) : Disk := { d with root := d.root.remove s }

/-- The directory at a spot, or why there is none. -/
def directory? (d : Disk) (s : Spot) : Except Refusal Spot :=
  match d.node? s with
  | some (.directory _) => .ok s
  | some (.file _) => .error .notDirectory
  | none => .error .missing

/-- One step from a directory: a dot stays, two dots go back, a name goes on to what lies there. -/
def step (d : Disk) (s : Spot) (name : Text) : Except Refusal Spot :=
  if name = Text.of "." then .ok s
  else if name = Text.of ".." then .ok s.dropLast
  else if !nameFits name then .error .nameTooLong
  else if (d.node? (s ++ [name])).isNone then .error .missing
  else .ok (s ++ [name])

/-- The spot that names lead to. Each name needs a directory before it, and the first one that
fails counts. -/
def follow (d : Disk) : Spot → List Text → Except Refusal Spot
  | s, [] => .ok s
  | s, name :: rest => do
    let s ← d.directory? s
    let s ← d.step s name
    d.follow s rest

/-- Where a route starts; one that is too long leads nowhere. -/
def start (d : Disk) (r : Route) : Except Refusal Spot :=
  if r.size > pathLimit then .error .nameTooLong else .ok (if r.fromRoot then [] else d.here)

def find (d : Disk) (r : Route) : Except Refusal Spot := do
  let s ← d.start r
  d.follow s r.names

def read (d : Disk) (r : Route) : Except Refusal Bytes := do
  let s ← d.find r
  match d.node? s with
  | some (.file bytes) => .ok bytes
  | some (.directory _) => .error .isDirectory
  | none => .error .missing

/-- Whether something lies at the end of a route. That a part of it is missing or is no directory
is an answer; a name that is too long is not. -/
def isThere (d : Disk) (r : Route) : Except Refusal Bool :=
  match d.find r with
  | .ok _ => .ok true
  | .error .missing => .ok false
  | .error .notDirectory => .ok false
  | .error refusal => .error refusal

/-- The files under the directory to start from, each with its path from there, and the directories
with nothing in them, with a slash behind theirs, in the order of their paths. -/
def listing (d : Disk) : List (Text × Option Bytes) :=
  let entries := ((d.node? d.here).map Node.entries).getD []
  (Node.leavesIn [] entries).mergeSort fun a b => Text.precedes a.1 b.1

end Disk

end Syllogism
