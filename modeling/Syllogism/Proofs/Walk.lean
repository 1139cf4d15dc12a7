import Syllogism.Walk
import Mathlib.Logic.Relation
import Mathlib.Logic.Function.Iterate

/-! A walk comes to the nodes that the links lead to, and to no others. Step by step it ends, since
each step follows a link that was pending or takes a node off the stack. -/

namespace Syllogism.Walk

open Relation

variable {α β : Type} [DecidableEq α] {links : Links α} {visited stack : List α} {j k : α}

/-- A link goes from `j` to `k`. -/
def Link (links : Links α) (j k : α) : Prop := k ∈ next links j

theorem reachable_of_mem_order (hk : k ∈ order links visited stack) :
    ∃ j ∈ stack, ReflTransGen (Link links) j k := by
  fun_induction order links visited stack with
  | case1 => simp at hk
  | case2 visited a stack ha ih =>
    obtain ⟨j, hj, hjk⟩ := ih hk
    exact ⟨j, List.mem_cons_of_mem a hj, hjk⟩
  | case3 visited a stack ha ih =>
    rcases List.mem_cons.mp hk with rfl | hk
    · exact ⟨k, List.mem_cons_self, .refl⟩
    · obtain ⟨j, hj, hjk⟩ := ih hk
      rcases List.mem_append.mp hj with hj | hj
      · exact ⟨a, List.mem_cons_self, .head hj hjk⟩
      · exact ⟨j, List.mem_cons_of_mem a hj, hjk⟩

/-- Every node on the stack is visited in the end. -/
theorem mem_order_of_mem_stack (hj : j ∈ stack) :
    j ∈ visited ∨ j ∈ order links visited stack := by
  fun_induction order links visited stack with
  | case1 => simp at hj
  | case2 visited a stack ha ih =>
    rcases List.mem_cons.mp hj with rfl | hj
    · exact .inl ha
    · exact ih hj
  | case3 visited a stack ha ih =>
    rcases List.mem_cons.mp hj with rfl | hj
    · exact .inr List.mem_cons_self
    · rcases ih (List.mem_append_right _ hj) with hv | ho
      · rcases List.mem_cons.mp hv with rfl | hv
        · exact .inr List.mem_cons_self
        · exact .inl hv
      · exact .inr (List.mem_cons_of_mem a ho)

/-- Links from visited nodes go to visited nodes or to the stack. -/
def Closed (links : Links α) (visited stack : List α) : Prop :=
  ∀ j ∈ visited, ∀ k, Link links j k → k ∈ visited ∨ k ∈ stack

theorem Closed.visit (h : Closed links visited (k :: stack)) :
    Closed links (k :: visited) (next links k ++ stack) := by
  intro j hj l hl
  rcases List.mem_cons.mp hj with rfl | hj
  · exact .inr (List.mem_append_left _ hl)
  · rcases h j hj l hl with hv | hs
    · exact .inl (List.mem_cons_of_mem k hv)
    · rcases List.mem_cons.mp hs with rfl | hs
      · exact .inl List.mem_cons_self
      · exact .inr (List.mem_append_right _ hs)

theorem Closed.pass (h : Closed links visited (k :: stack)) (hk : k ∈ visited) :
    Closed links visited stack := by
  intro j hj l hl
  rcases h j hj l hl with hv | hs
  · exact .inl hv
  · rcases List.mem_cons.mp hs with rfl | hs
    · exact .inl hk
    · exact .inr hs

omit [DecidableEq α] in
theorem mem_cons_or_mem {a : α} {l m : List α} :
    (k ∈ a :: l ∨ k ∈ m) ↔ (k ∈ l ∨ k ∈ a :: m) := by
  rw [List.mem_cons, List.mem_cons, or_assoc, or_left_comm]

/-- In the end no link leads out of the visited nodes. -/
theorem mem_order_of_link (h : Closed links visited stack)
    (hj : j ∈ visited ∨ j ∈ order links visited stack) (hjk : Link links j k) :
    k ∈ visited ∨ k ∈ order links visited stack := by
  fun_induction order links visited stack with
  | case1 visited =>
    rcases hj with hj | hj
    · rcases h j hj k hjk with hv | hs
      · exact .inl hv
      · simp at hs
    · simp at hj
  | case2 visited a stack ha ih => exact ih (h.pass ha) hj
  | case3 visited a stack ha ih =>
    rw [← mem_cons_or_mem] at hj ⊢
    exact ih h.visit hj

/-- The nodes of a walk that starts with nothing visited are those that the links lead to. -/
theorem mem_order_iff : k ∈ order links [] stack ↔ ∃ j ∈ stack, ReflTransGen (Link links) j k := by
  constructor
  · exact reachable_of_mem_order
  · rintro ⟨j, hj, hjk⟩
    induction hjk with
    | refl =>
      have hv : j ∈ ([] : List α) ∨ j ∈ order links [] stack := mem_order_of_mem_stack hj
      exact hv.resolve_left List.not_mem_nil
    | tail _ hl ih =>
      have hc : Closed links [] stack := fun j hj => absurd hj List.not_mem_nil
      exact (mem_order_of_link hc (.inr ih) hl).resolve_left List.not_mem_nil

/-- Of the nodes that were visited only the membership counts. -/
theorem order_congr {visited' : List α} (stack : List α) (h : ∀ n, n ∈ visited ↔ n ∈ visited') :
    order links visited stack = order links visited' stack := by
  fun_induction order links visited stack generalizing visited' with
  | case1 => rw [order]
  | case2 visited a stack ha ih =>
    have ha' : a ∈ visited' := (h a).mp ha
    rw [ih h, order, if_pos ha']
  | case3 visited a stack ha ih =>
    have ha' : a ∉ visited' := fun hm => ha ((h a).mpr hm)
    have hc : ∀ n, n ∈ a :: visited ↔ n ∈ a :: visited' := by
      intro n
      simp only [List.mem_cons, h]
    rw [ih hc, order, if_neg ha']

/-- A walk is through with the upper part of its stack before it comes to the lower part. -/
theorem order_append (links : Links α) (visited upper lower : List α) :
    order links visited (upper ++ lower) = order links visited upper ++
      order links (order links visited upper ++ visited) lower := by
  fun_induction order links visited upper with
  | case1 => rfl
  | case2 visited a upper ha ih => rw [List.cons_append, order, if_pos ha, ih]
  | case3 visited a upper ha ih =>
    have hv : ∀ n, n ∈ order links (a :: visited) (next links a ++ upper) ++ a :: visited ↔
        n ∈ a :: order links (a :: visited) (next links a ++ upper) ++ visited := by
      intro n
      exact List.perm_middle.mem_iff
    rw [List.cons_append, order, if_neg ha, ← List.append_assoc, ih, order_congr lower hv,
      List.cons_append, List.cons_append]

/-! The walk as a loop, which reports nodes as it comes to them. -/

/-- The stack with the next node on top, the nodes that were visited, and what was reported. -/
structure Loop (α β : Type) where
  stack : List α
  visited : List α
  found : List β

/-- One turn of the loop. A new node is reported, and the nodes it is linked to go on the stack. -/
def Loop.turn (links : Links α) (report : List β → α → List β) : Loop α β → Loop α β
  | ⟨[], visited, found⟩ => ⟨[], visited, found⟩
  | ⟨k :: stack, visited, found⟩ =>
    if k ∈ visited then ⟨stack, visited, found⟩
    else ⟨next links k ++ stack, k :: visited, report found k⟩

/-- The most turns that the loop can take from here. -/
def Loop.room (links : Links α) (l : Loop α β) : Nat :=
  pending links l.visited + l.stack.length

theorem Loop.turn_iterate_nil (links : Links α) (report : List β → α → List β) (n : Nat)
    (visited : List α) (found : List β) :
    (Loop.turn links report)^[n] ⟨[], visited, found⟩ = ⟨[], visited, found⟩ :=
  Function.iterate_fixed rfl n

/-- The loop ends, and it has reported the nodes of the walk in their order. -/
theorem Loop.turn_iterate (links : Links α) (report : List β → α → List β) {n : Nat}
    (l : Loop α β) (hn : l.room links ≤ n) :
    ∃ visited, (Loop.turn links report)^[n] l =
      ⟨[], visited, (order links l.visited l.stack).foldl report l.found⟩ := by
  -- on the turns that are left; each makes room smaller or finds the stack empty
  induction n generalizing l with
  | zero =>
    obtain ⟨stack, visited, found⟩ := l
    simp only [Loop.room] at hn
    obtain rfl := List.eq_nil_of_length_eq_zero (show stack.length = 0 by omega)
    exact ⟨visited, by simp [order]⟩
  | succ n ih =>
    obtain ⟨stack, visited, found⟩ := l
    rw [Function.iterate_succ_apply]
    cases stack with
    | nil =>
      rw [Loop.turn, Loop.turn_iterate_nil]
      exact ⟨visited, by simp [order]⟩
    | cons k stack =>
      rw [Loop.turn, order]
      simp only [Loop.room, List.length_cons] at hn
      split
      · exact ih ⟨stack, visited, found⟩ (by simp only [Loop.room]; omega)
      · rename_i hk
        have := pending_visit links hk
        exact ih ⟨next links k ++ stack, k :: visited, report found k⟩ (by
          simp only [Loop.room, List.length_append]; omega)

end Syllogism.Walk
