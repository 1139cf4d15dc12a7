import Syllogism.Proofs.Walk

/-! The walk as a recursion: a node that is entered has the nodes it is linked to visited before the
next one has its turn. What waits on the stack are the visits that are still to be made. -/

namespace Syllogism.Walk

variable {α σ : Type} [DecidableEq α] {links : Links α}

theorem linksOutside_mono {visited visited' : List α} (h : visited ⊆ visited')
    (l : List (α × List α)) : linksOutside visited' l ≤ linksOutside visited l := by
  induction l with
  | nil => exact Nat.le_refl _
  | cons p l ih =>
    have hp : p.1 ∈ visited → p.1 ∈ visited' := fun hm => h hm
    by_cases hm : p.1 ∈ visited
    · simp only [linksOutside, hm, hp hm, if_true]
      omega
    · simp only [linksOutside, hm, if_false]
      split <;> omega

theorem pending_mono {visited visited' : List α} (links : Links α) (h : visited ⊆ visited') :
    pending links visited' ≤ pending links visited := linksOutside_mono h links.entries

/-- How a visitor goes from state to state: by entering nodes, each of which is seen from then
on. -/
structure Visitor (α σ : Type) where
  seen : σ → List α
  enter : σ → α → σ
  mem_seen_enter : ∀ s k n, n ∈ seen (enter s k) ↔ n = k ∨ n ∈ seen s

namespace Visitor

theorem pending_enter (v : Visitor α σ) (links : Links α) {s : σ} {k : α} (hk : k ∉ v.seen s) :
    pending links (v.seen (v.enter s k)) + (next links k).length ≤ pending links (v.seen s) := by
  have hs : k :: v.seen s ⊆ v.seen (v.enter s k) := by
    intro n hn
    exact (v.mem_seen_enter s k n).mpr (List.mem_cons.mp hn)
  have hm := pending_mono links hs
  have hv := pending_visit links hk
  omega

mutual

/-- A visit to a node that was seen does nothing. Any other node is entered, and then the nodes that
it is linked to are visited. -/
def visit (v : Visitor α σ) (links : Links α) (s : σ) (k : α) :
    { t : σ // v.seen s ⊆ v.seen t } :=
  if k ∈ v.seen s then ⟨s, fun _ => id⟩
  else
    let t := v.visitAll links (v.enter s k) (next links k)
    ⟨t.1, fun n hn => t.2 ((v.mem_seen_enter s k n).mpr (.inr hn))⟩
termination_by 2 * pending links (v.seen s) + 1
decreasing_by
  have := v.pending_enter links (show k ∉ v.seen s by assumption)
  omega

/-- Visits in order, each from the state that the one before it leaves. -/
def visitAll (v : Visitor α σ) (links : Links α) (s : σ) :
    (nodes : List α) → { t : σ // v.seen s ⊆ v.seen t }
  | [] => ⟨s, fun _ => id⟩
  | k :: nodes =>
    let t := v.visit links s k
    let u := v.visitAll links t.1 nodes
    ⟨u.1, fun _ hn => u.2 (t.2 hn)⟩
termination_by nodes => 2 * (pending links (v.seen s) + nodes.length)
decreasing_by
  · simp only [List.length_cons]
    omega
  · have := pending_mono links t.2
    show 2 * (pending links (v.seen t.1) + nodes.length) < 2 * (pending links (v.seen s) + _)
    simp only [List.length_cons]
    omega

end

theorem visitAll_cons (v : Visitor α σ) (links : Links α) (s : σ) (k : α) (nodes : List α) :
    (v.visitAll links s (k :: nodes)).1 =
      (v.visitAll links (v.visit links s k).1 nodes).1 := by
  rw [visitAll]

theorem visitAll_eq_foldl (v : Visitor α σ) (links : Links α) (s : σ) (nodes : List α) :
    (v.visitAll links s nodes).1 = nodes.foldl (fun s k => (v.visit links s k).1) s := by
  induction nodes generalizing s with
  | nil => rw [visitAll, List.foldl_nil]
  | cons k nodes ih => rw [visitAll_cons, List.foldl_cons, ih]

theorem visit_of_mem (v : Visitor α σ) {s : σ} {k : α} (hk : k ∈ v.seen s) :
    (v.visit links s k).1 = s := by
  rw [visit, if_pos hk]

theorem visit_of_notMem (v : Visitor α σ) {s : σ} {k : α} (hk : k ∉ v.seen s) :
    (v.visit links s k).1 =
      (next links k).foldl (fun s k => (v.visit links s k).1) (v.enter s k) := by
  rw [visit, if_neg hk]
  exact v.visitAll_eq_foldl links _ _

theorem visitAll_append (v : Visitor α σ) (links : Links α) (s : σ) (nodes nodes' : List α) :
    (v.visitAll links s (nodes ++ nodes')).1 =
      (v.visitAll links (v.visitAll links s nodes).1 nodes').1 := by
  simp only [visitAll_eq_foldl, List.foldl_append]

/-- Visits enter the nodes that a walk comes to, in the order of the walk. -/
theorem visitAll_eq_order (v : Visitor α σ) (links : Links α) (s : σ) (nodes : List α)
    {visited : List α} (h : ∀ n, n ∈ v.seen s ↔ n ∈ visited) :
    (v.visitAll links s nodes).1 = (order links visited nodes).foldl v.enter s := by
  -- along the walk: each turn on its stack is the first of the visits to the nodes there
  fun_induction order links visited nodes generalizing s with
  | case1 visited => rw [visitAll, List.foldl_nil]
  | case2 visited k stack hk ih =>
    have hv : (v.visit links s k).1 = s := v.visit_of_mem ((h k).mpr hk)
    rw [visitAll_cons, hv, ih s h]
  | case3 visited k stack hk ih =>
    have hs : k ∉ v.seen s := fun hm => hk ((h k).mp hm)
    have hv : (v.visit links s k).1 = (v.visitAll links (v.enter s k) (next links k)).1 := by
      rw [v.visit_of_notMem hs, visitAll_eq_foldl]
    have he : ∀ n, n ∈ v.seen (v.enter s k) ↔ n ∈ k :: visited := by
      intro n
      rw [v.mem_seen_enter, h, List.mem_cons]
    calc
      (v.visitAll links s (k :: stack)).1 =
          (v.visitAll links (v.enter s k) (next links k ++ stack)).1 := by
        rw [visitAll_cons, hv, visitAll_append]
      _ = (k :: order links (k :: visited) (next links k ++ stack)).foldl v.enter s := by
        rw [ih (v.enter s k) he, List.foldl_cons]

end Visitor

end Syllogism.Walk
