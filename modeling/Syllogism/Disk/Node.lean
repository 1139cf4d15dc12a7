import Syllogism.OrderedMap
import Syllogism.Text.Utf8

/-! Trees of directories and files. What is put at a spot is found there, and what lies apart from
the spot stays as it was. -/

namespace Syllogism

/-- The names on the way from the root. -/
abbrev Spot := List Text

/-- A file, or a directory of nodes with names. -/
inductive Node where
  | file (bytes : Bytes)
  | directory (entries : List (Text × Node))
  deriving Inhabited, Repr

namespace Node

def entries : Node → List (Text × Node)
  | file _ => []
  | directory entries => entries

def child? (n : Node) (name : Text) : Option Node := OrderedMap.valueIn? name n.entries

/-- What lies at a spot. -/
def at? : Node → Spot → Option Node
  | n, [] => some n
  | n, name :: rest => (n.child? name).bind fun inner => inner.at? rest

/-- The tree with a new node at a spot, and with directories on all the way to it. -/
def put : Node → Spot → Node → Node
  | _, [], new => new
  | n, name :: rest, new =>
    directory (OrderedMap.putIn name (((n.child? name).getD (directory [])).put rest new) n.entries)

/-- The tree without what lies at a spot. -/
def remove : Node → Spot → Node
  | n, [] => n
  | n, [name] => directory (OrderedMap.dropIn name n.entries)
  | n, name :: next :: rest =>
    match n.child? name with
    | some inner => directory (OrderedMap.putIn name (inner.remove (next :: rest)) n.entries)
    | none => n

theorem child?_put_cons (n : Node) (name : Text) (rest : Spot) (new : Node) (other : Text) :
    (n.put (name :: rest) new).child? other =
      if other = name then some (((n.child? name).getD (directory [])).put rest new)
      else n.child? other := by
  simp only [put, child?, entries, OrderedMap.valueIn?_putIn]

/-- Below a spot lies what was put there. -/
theorem at?_put_append (n : Node) (s t : Spot) (new : Node) :
    (n.put s new).at? (s ++ t) = new.at? t := by
  induction s generalizing n with
  | nil => rfl
  | cons name rest ih => simp [at?, child?_put_cons, ih]

/-- Of two spots with neither on the way to the other, each keeps what it has when something is put
at the other. -/
theorem at?_put_of_apart (n : Node) {s t : Spot} (new : Node) (hst : ¬ s <+: t) (hts : ¬ t <+: s) :
    (n.put s new).at? t = n.at? t := by
  induction s generalizing n t with
  | nil => exact absurd (List.nil_prefix) hst
  | cons name rest ih =>
    cases t with
    | nil => exact absurd (List.nil_prefix) hts
    | cons other more =>
      simp only [at?, child?_put_cons]
      split
      · rename_i h
        subst h
        have hst : ¬ rest <+: more := fun h => hst (List.cons_prefix_cons.mpr ⟨rfl, h⟩)
        have hts : ¬ more <+: rest := fun h => hts (List.cons_prefix_cons.mpr ⟨rfl, h⟩)
        rw [Option.bind_some, ih _ hst hts]
        cases n.child? other with
        | some inner => rfl
        | none =>
          cases more with
          | nil => exact absurd (List.nil_prefix) hts
          | cons _ _ => rfl
      · rfl

mutual

/-- The files in a tree, each with its path, and the directories with nothing in them, with a slash
behind theirs. -/
def leaves (path : Text) : Node → List (Text × Option Bytes)
  | file bytes => [(path, some bytes)]
  | directory entries =>
    if entries.isEmpty then [(path ++ [.char '/'], none)]
    else leavesIn (path ++ [.char '/']) entries

/-- The leaves of some entries; `way` stands before each path. -/
def leavesIn (way : Text) : List (Text × Node) → List (Text × Option Bytes)
  | [] => []
  | (name, n) :: rest => leaves (way ++ name) n ++ leavesIn way rest

end

end Node

end Syllogism
