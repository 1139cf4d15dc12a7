import Syllogism.Text.Utf8

/-! Paths: names between slashes. -/

namespace Syllogism

/-- A path in its normal form: the slashes in front of it (none, one, or two) and its names. Neither
empty names nor single dots are kept; two dots are. -/
structure Path where
  slashes : Nat
  names : List Text
  deriving DecidableEq, Repr

namespace Path

/-- The parts of a text between slashes, empty ones included. -/
def split : Text → List Text
  | [] => [[]]
  | .char '/' :: rest => [] :: split rest
  | c :: rest =>
    match split rest with
    | [] => [[c]]
    | part :: parts => (c :: part) :: parts

/-- The slashes that count in front of a path: exactly two are kept, otherwise one stands for
all. -/
def slashesOf (t : Text) : Nat :=
  match (t.takeWhile (· == .char '/')).length with
  | 0 => 0
  | 2 => 2
  | _ => 1

def ofText (t : Text) : Path :=
  ⟨slashesOf t, (split t).filter fun name => !(name.isEmpty || name == Text.of ".")⟩

/-- The path as it is written; an empty one is a dot. -/
def text (p : Path) : Text :=
  if p.slashes = 0 ∧ p.names = [] then "."
  else List.replicate p.slashes (.char '/') ++ Text.joinWith "/" p.names

def parent (p : Path) : Path := { p with names := p.names.dropLast }

/-- The last name, and nothing for a path without names. -/
def name (p : Path) : Text := p.names.getLast?.getD []

end Path

/-! The system knows a text by its bytes. A half can stand for a byte that is no part of a character,
and is this byte then. Several such halves could spell a character together; as the system hands over
the character instead, this is left out, and they are a name of their own. -/

namespace Path

/-- The halves that stand for a byte: those with the codes from DC80 on to DCFF. -/
def isByteHalf (n : Fin 0x800) : Bool := 0x480 ≤ n.val && n.val < 0x500

def pointBytes : CodePoint → Bytes
  | .half n =>
    if isByteHalf n then [Utf8.byte (n.val - 0x400)] else Utf8.encodePoint (.half n)
  | c => Utf8.encodePoint c

def bytes (t : Text) : Bytes := t.flatMap pointBytes

/-- Why a text is nothing for the system: there is a NUL in it, or a half that stands for no byte. -/
inductive Unfit where
  | nul
  | halves (gap : Utf8.Gap)
  deriving DecidableEq, Repr

/-- Halves count before a NUL. -/
def unfit? (t : Text) : Option Unfit :=
  match Utf8.refused? isByteHalf t with
  | some gap => some (.halves gap)
  | none => if t.contains '\x00' then some .nul else none

end Path

/-- A path as the system takes it: whether it starts at the root, its names with single dots
among them, and the number of its bytes. -/
structure Route where
  fromRoot : Bool
  names : List Text
  size : Nat

def Path.route (p : Path) : Route := ⟨p.slashes != 0, p.names, (bytes p.text).length⟩

/-- A text taken as it is. A slash at the end, and one after another, ask for a directory before
them. -/
def Route.ofText (t : Text) : Route :=
  ⟨t.head? == some '/', (Path.split t).map fun name => if name.isEmpty then "." else name,
    (Path.bytes t).length⟩

end Syllogism
