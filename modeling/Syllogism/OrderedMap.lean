/-! Maps that keep the order in which their keys came. -/

namespace Syllogism

/-- Pairs of a key and a value, no key twice, in the order in which the keys came. -/
structure OrderedMap (α β : Type) where
  entries : List (α × β)
  nodup : (entries.map Prod.fst).Nodup := by simp

namespace OrderedMap

variable {α β γ : Type} [DecidableEq α]

/-- In a list of pairs, the value of the first pair with key `k`. -/
def valueIn? (k : α) : List (α × β) → Option β
  | [] => none
  | (k', v) :: rest => if k = k' then some v else valueIn? k rest

/-- In a list of pairs, `k` gets the value `v`: where it stands, or else behind all others. -/
def putIn (k : α) (v : β) : List (α × β) → List (α × β)
  | [] => [(k, v)]
  | (k', w) :: rest => if k = k' then (k', v) :: rest else (k', w) :: putIn k v rest

/-- The pairs of a list without those of `k`. -/
def dropIn (k : α) (l : List (α × β)) : List (α × β) := l.filter fun p => p.1 ≠ k

/-- Each key once, where it stood first, with the value it had last. -/
def settle (pairs : List (α × β)) : List (α × β) :=
  pairs.foldl (fun settled p => putIn p.1 p.2 settled) []

theorem keys_putIn (k : α) (v : β) (l : List (α × β)) :
    (putIn k v l).map Prod.fst =
      if k ∈ l.map Prod.fst then l.map Prod.fst else l.map Prod.fst ++ [k] := by
  induction l with
  | nil => simp [putIn]
  | cons p l ih =>
    by_cases h : k = p.1
    · simp [putIn, h]
    · simp only [putIn, h, if_false, List.map_cons, List.mem_cons, false_or, ih]
      split <;> simp

theorem nodup_putIn (k : α) (v : β) {l : List (α × β)} (h : (l.map Prod.fst).Nodup) :
    ((putIn k v l).map Prod.fst).Nodup := by
  rw [keys_putIn]
  split
  · exact h
  · rename_i hk
    rw [List.nodup_append]
    refine ⟨h, by simp, ?_⟩
    rintro a ha b hb rfl
    simp only [List.mem_singleton] at hb
    exact hk (hb ▸ ha)

theorem valueIn?_putIn (k k' : α) (v : β) (l : List (α × β)) :
    valueIn? k' (putIn k v l) = if k' = k then some v else valueIn? k' l := by
  induction l with
  | nil => simp [putIn, valueIn?]
  | cons p l ih =>
    by_cases h : k = p.1
    · subst h
      by_cases hk : k' = p.1 <;> simp [putIn, valueIn?, hk]
    · simp only [putIn, h, if_false, valueIn?, ih]
      split
      · rename_i hp
        have hk : ¬ k' = k := fun e => h (e ▸ hp)
        simp [hk]
      · rfl

theorem valueIn?_isSome (k : α) (l : List (α × β)) :
    (valueIn? k l).isSome = true ↔ k ∈ l.map Prod.fst := by
  induction l with
  | nil => simp [valueIn?]
  | cons p l ih =>
    by_cases h : k = p.1
    · simp [valueIn?, h]
    · simp only [valueIn?, h, if_false, List.map_cons, List.mem_cons, false_or, ih]

def empty : OrderedMap α β := ⟨[], by simp⟩

instance : Inhabited (OrderedMap α β) := ⟨empty⟩

def keys (m : OrderedMap α β) : List α := m.entries.map Prod.fst

def size (m : OrderedMap α β) : Nat := m.entries.length

def get? (m : OrderedMap α β) (k : α) : Option β := valueIn? k m.entries

def contains (m : OrderedMap α β) (k : α) : Bool := (m.get? k).isSome

def put (m : OrderedMap α β) (k : α) (v : β) : OrderedMap α β :=
  ⟨putIn k v m.entries, nodup_putIn k v m.nodup⟩

@[simp] theorem get?_empty (k : α) : (empty : OrderedMap α β).get? k = none := rfl

theorem get?_put (m : OrderedMap α β) (k k' : α) (v : β) :
    (m.put k v).get? k' = if k' = k then some v else m.get? k' :=
  valueIn?_putIn k k' v m.entries

theorem keys_put (m : OrderedMap α β) (k : α) (v : β) :
    (m.put k v).keys = if k ∈ m.keys then m.keys else m.keys ++ [k] :=
  keys_putIn k v m.entries

theorem contains_iff_mem_keys (m : OrderedMap α β) (k : α) : m.contains k = true ↔ k ∈ m.keys :=
  valueIn?_isSome k m.entries

/-- The map of some pairs: of two with one key, the first gives the position, the last the
value. -/
def ofList (pairs : List (α × β)) : OrderedMap α β :=
  pairs.foldl (fun m p => m.put p.1 p.2) empty

def mapValues (f : β → γ) (m : OrderedMap α β) : OrderedMap α γ :=
  ⟨m.entries.map fun p => (p.1, f p.2), by simpa [Function.comp_def] using m.nodup⟩

omit [DecidableEq α] in
@[ext] theorem ext {m n : OrderedMap α β} (h : m.entries = n.entries) : m = n := by
  cases m; cases n; cases h; rfl

instance [DecidableEq β] : DecidableEq (OrderedMap α β) := fun m n =>
  decidable_of_iff (m.entries = n.entries) ⟨ext, fun h => h ▸ rfl⟩

end OrderedMap

end Syllogism
