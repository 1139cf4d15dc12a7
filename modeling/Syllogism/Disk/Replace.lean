import Syllogism.Disk.Basic

/-! Making directories, and writing files: in place, or so that a file is there in full or not at
all, beside the file under another name and then over it. -/

namespace Syllogism.Disk

/-- The directory at a spot where something lies. A file there takes its place. -/
def occupant (d : Disk) (s : Spot) : Except Refusal Spot :=
  (d.directory? s).mapError fun _ => .taken

/-- One step to a directory, which is made if nothing is there. -/
def enter (d : Disk) (s : Spot) (name : Text) : Except Refusal (Disk × Spot) :=
  match d.step s name with
  | .ok s => (d.occupant s).map (d, ·)
  | .error .missing => .ok (d.put (s ++ [name]) (.directory []), s ++ [name])
  | .error refusal => .error refusal

/-- Steps to directories, made where nothing is there. What was made stays also if a later one is
refused. -/
def enterAll (d : Disk) : Spot → List Text → Except Refusal Unit × Disk
  | _, [] => (.ok (), d)
  | s, name :: rest =>
    match d.enter s name with
    | .ok (d, s) => d.enterAll s rest
    | .error refusal => (.error refusal, d)

/-- The names from the first one on that leads nowhere. -/
def lackingFrom (d : Disk) : Spot → List Text → List Text
  | _, [] => []
  | s, name :: rest =>
    match (d.directory? s).bind (d.step · name) with
    | .ok s => d.lackingFrom s rest
    | .error .missing => name :: rest
    | .error _ => []

/-- The end of a path that is not there. -/
def lacking (d : Disk) (p : Path) : List Text :=
  match d.start p.route with
  | .ok s => d.lackingFrom s p.names
  | .error _ => []

/-- Where the part of a path leads that is there. -/
def lastThere (d : Disk) (p : Path) : Except Refusal Spot := do
  let s ← d.start p.route
  let s ← d.follow s (p.names.take (p.names.length - (d.lacking p).length))
  d.occupant s

/-- A directory at the end of a path, and before it those that are missing on the way. -/
def ensureDirectories (d : Disk) (p : Path) : Except Refusal Unit × Disk :=
  match d.lastThere p with
  | .ok s => d.enterAll s (d.lacking p)
  | .error refusal => (.error refusal, d)

/-- How many names lead to directories, made or not, before one is refused. -/
def enteredFrom (d : Disk) (s : Spot) : List Text → Nat
  | [] => 0
  | name :: rest =>
    match d.enter s name with
    | .ok (d, s) => d.enteredFrom s rest + 1
    | .error _ => 0

/-- The directory that is refused when those at the end of a path are made: one of the missing ones,
or the last one that was there. -/
def refusedDirectory (d : Disk) (p : Path) : Path :=
  let there := p.names.length - (d.lacking p).length
  match d.lastThere p with
  | .ok s => { p with names := p.names.take (there + d.enteredFrom s (d.lacking p) + 1) }
  | .error _ => { p with names := p.names.take there }

/-- The bytes in a file, which may be a new one. -/
def write (d : Disk) (p : Path) (bytes : Bytes) : Except Refusal Disk := do
  let s ← d.start p.route
  let s ← d.follow s p.parent.names
  let s ← d.directory? s
  match d.follow s (p.names.drop p.parent.names.length) with
  | .ok s =>
    match d.node? s with
    | some (.directory _) => .error .isDirectory
    | _ => .ok (d.put s (.file bytes))
  | .error .missing => .ok (d.put (s ++ [p.name]) (.file bytes))
  | .error refusal => .error refusal

/-- The name of a draft beside a file: a dot before the name of the file, and behind it a dot and
eight more characters. -/
def draftName (name : Text) (n : Nat) : Text :=
  Text.of "." ++ name ++ Text.of "." ++ Text.hex 8 n

/-- A draft is named by the whole way from the root, without detours. -/
def draftFits (s : Spot) (name : Text) : Bool :=
  nameFits (draftName name 0) && (Path.route ⟨1, s ++ [draftName name 0]⟩).size ≤ pathLimit

/-- The directory where a draft is written beside the end of a path. -/
def draftSpot (d : Disk) (p : Path) : Except Refusal Spot := do
  let s ← d.start p.parent.route
  let s ← d.follow s p.parent.names
  let s ← d.directory? s
  if draftFits s p.name then .ok s else .error .nameTooLong

/-- The way from the root to a spot, as it is written. -/
def spotText (s : Spot) : Text := Path.text ⟨1, s⟩

/-- The text by which the system is asked for a draft beside the end of a path. -/
def draftText (d : Disk) (p : Path) : Text :=
  match (d.start p.parent.route).bind fun s => d.follow s p.parent.names with
  | .ok s => spotText (s ++ [draftName p.name 0])
  | .error _ => draftName p.name 0

/-- The most names that are tried for a draft. -/
def draftLimit : Nat := 10000

/-- The first name for a draft, from the number `n` on, that nothing in the directory has. -/
def draftFrom (d : Disk) (s : Spot) (name : Text) : (tries n : Nat) → Except Refusal Text
  | 0, _ => .error .noDraftName
  | tries + 1, n =>
    if (d.node? (s ++ [draftName name n])).isNone then .ok (draftName name n)
    else d.draftFrom s name tries (n + 1)

/-- A new file with nothing in it, beside the end of a path. -/
def createDraft (d : Disk) (p : Path) : Except Refusal (Disk × Spot) := do
  let s ← d.draftSpot p
  let name ← d.draftFrom s p.name draftLimit 0
  .ok (d.put (s ++ [name]) (.file []), s ++ [name])

/-- What lies at a spot goes to the end of a path, in place of the file there. -/
def rename (d : Disk) (draft : Spot) (p : Path) : Except Refusal Disk := do
  let s ← d.start p.route
  let s ← d.follow s p.parent.names
  let s ← d.directory? s
  if p.names = [] ∨ p.name = Text.of ".." then .error .busy
  else
    match d.node? draft, d.node? (s ++ [p.name]) with
    | none, _ => .error .missing
    | some _, some (.directory _) => .error .isDirectory
    | some n, _ => .ok ((d.remove draft).put (s ++ [p.name]) n)

end Syllogism.Disk
