import Syllogism.OrderedMap

/-! Walks along links, depth first, with a stack of nodes that wait. -/

namespace Syllogism

/-- From a node to the nodes it is linked to, in order. -/
abbrev Links (α : Type) := OrderedMap α (List α)

namespace Walk

variable {α : Type} [DecidableEq α]

def next (links : Links α) (k : α) : List α := (links.get? k).getD []

/-- The number of links in a list of entries that start at a node outside `visited`. -/
def linksOutside (visited : List α) : List (α × List α) → Nat
  | [] => 0
  | (k, ks) :: rest => (if k ∈ visited then 0 else ks.length) + linksOutside visited rest

/-- The number of links that a walk has not followed yet. -/
def pending (links : Links α) (visited : List α) : Nat := linksOutside visited links.entries

theorem linksOutside_cons_le (k : α) (visited : List α) (l : List (α × List α)) :
    linksOutside (k :: visited) l ≤ linksOutside visited l := by
  induction l with
  | nil => exact Nat.le_refl _
  | cons p l ih =>
    simp only [linksOutside, List.mem_cons]
    by_cases h : p.1 ∈ visited <;> by_cases h' : p.1 = k <;> simp [h, h'] <;> omega

theorem linksOutside_visit {k : α} {visited : List α} (hk : k ∉ visited)
    (l : List (α × List α)) :
    linksOutside (k :: visited) l + ((OrderedMap.valueIn? k l).getD []).length ≤
      linksOutside visited l := by
  induction l with
  | nil => simp [linksOutside, OrderedMap.valueIn?]
  | cons p l ih =>
    obtain ⟨k', ks⟩ := p
    by_cases h : k = k'
    · subst h
      have := linksOutside_cons_le k visited l
      simp [linksOutside, OrderedMap.valueIn?, hk]
      omega
    · have h' : ¬ k' = k := fun e => h e.symm
      simp only [linksOutside, OrderedMap.valueIn?, List.mem_cons, h, h', false_or, if_false]
      omega

theorem pending_visit {k : α} {visited : List α} (links : Links α) (hk : k ∉ visited) :
    pending links (k :: visited) + (next links k).length ≤ pending links visited :=
  linksOutside_visit hk links.entries

/-- The nodes in the order in which a walk comes to them for the first time. The top of the stack
is next; a node that was visited before is passed over, another one puts the nodes it is linked to
on the stack. Each step follows a pending link or takes a node off the stack. -/
def order (links : Links α) (visited : List α) : (stack : List α) → List α
  | [] => []
  | k :: stack =>
    if k ∈ visited then order links visited stack
    else k :: order links (k :: visited) (next links k ++ stack)
termination_by stack => pending links visited + stack.length
decreasing_by
  · simp only [List.length_cons]; omega
  · have := pending_visit links (show k ∉ visited by assumption)
    simp only [List.length_append, List.length_cons]
    omega

theorem not_mem_visited_of_mem_order {links : Links α} {visited stack : List α} {k : α}
    (hk : k ∈ order links visited stack) : k ∉ visited := by
  fun_induction order links visited stack with
  | case1 => simp at hk
  | case2 visited a stack ha ih => exact ih hk
  | case3 visited a stack ha ih =>
    rcases List.mem_cons.1 hk with rfl | hk
    · exact ha
    · exact fun hv => ih hk (List.mem_cons_of_mem a hv)

/-- A walk comes to no node twice. -/
theorem nodup_order (links : Links α) (visited stack : List α) :
    (order links visited stack).Nodup := by
  fun_induction order links visited stack with
  | case1 => exact List.nodup_nil
  | case2 visited a stack ha ih => exact ih
  | case3 visited a stack ha ih =>
    refine List.nodup_cons.2 ⟨fun h => ?_, ih⟩
    exact not_mem_visited_of_mem_order h List.mem_cons_self

end Walk

end Syllogism
