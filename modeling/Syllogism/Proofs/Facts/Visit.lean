import Syllogism.Proofs.Facts.Query
import Syllogism.Proofs.Walk.Visit

/-! Both questions as recursions, depth first. The loops with a stack answer as they do, on all
facts and in the same order. -/

namespace Syllogism.Facts

/-! What a subject is -/

/-- A phrase is found, unless one with its key was found before. -/
def mention (key : Text → Text) (found : List Text) (a : Text) : List Text :=
  if found.any fun b => key b == key a then found else found ++ [a]

theorem foldl_mention (key : Text → Text) (found attributes : List Text) :
    attributes.foldl (mention key) found =
      found ++ firstMentions key (found.map key) attributes := by
  induction attributes generalizing found with
  | nil => simp [firstMentions]
  | cons a attributes ih =>
    have hf : (found.any fun b => key b == key a) = true ↔ key a ∈ found.map key := by
      simp
    by_cases ha : key a ∈ found.map key
    · rw [List.foldl_cons, mention, if_pos (hf.mpr ha), ih, firstMentions, if_pos ha]
    · have hs : ∀ n, n ∈ (found ++ [a]).map key ↔ n ∈ key a :: found.map key := by
        intro n
        simp [or_comm]
      rw [List.foldl_cons, mention, if_neg (mt hf.mp ha), ih, firstMentions, if_neg ha,
        firstMentions_congr attributes hs, List.append_assoc, List.singleton_append]

/-- The nodes that were visited, and the phrases that were found there. -/
structure Tour where
  visited : List Text
  found : List Text

/-- On a tour the attributes of each node are found that is entered. -/
def explorer (key : Text → Text) (facts : Facts) : Walk.Visitor Text Tour where
  seen t := t.visited
  enter t k := ⟨k :: t.visited, (facts.attributes k).foldl (mention key) t.found⟩
  mem_seen_enter _ _ _ := List.mem_cons

/-- A visit on a tour. -/
def explore (key : Text → Text) (facts : Facts) (t : Tour) (k : Text) : Tour :=
  ((explorer key facts).visit (forward key facts) t k).1

/-- A visit does nothing if the node was visited before. Otherwise it finds the attributes there, and
then it visits the node of each of them. -/
theorem explore_eq (key : Text → Text) (facts : Facts) (t : Tour) (k : Text) :
    explore key facts t k = if k ∈ t.visited then t
      else (facts.attributes k).foldl (fun t a => explore key facts t (key a))
        ⟨k :: t.visited, (facts.attributes k).foldl (mention key) t.found⟩ := by
  split
  · rename_i hk
    exact (explorer key facts).visit_of_mem hk
  · rename_i hk
    rw [explore, (explorer key facts).visit_of_notMem hk, next_forward, List.foldl_map]
    rfl

theorem reportAttributes_eq (key : Text → Text) (facts : Facts) :
    reportAttributes key facts = fun found k => (facts.attributes k).foldl (mention key) found := by
  funext found k
  rw [foldl_mention, reportAttributes]

theorem found_foldl_enter (key : Text → Text) (facts : Facts) (t : Tour) (nodes : List Text) :
    (nodes.foldl (explorer key facts).enter t).found =
      nodes.foldl (reportAttributes key facts) t.found := by
  rw [reportAttributes_eq]
  induction nodes generalizing t with
  | nil => rfl
  | cons k nodes ih => exact ih ((explorer key facts).enter t k)

theorem found_explore (key : Text → Text) (facts : Facts) (subject : Text) :
    (explore key facts ⟨[], []⟩ (key subject)).found = facts.whatIs key subject := by
  have hv : explore key facts ⟨[], []⟩ (key subject) =
      (Walk.order (forward key facts) [] [key subject]).foldl (explorer key facts).enter
        ⟨[], []⟩ := by
    have h := (explorer key facts).visitAll_eq_order (forward key facts) ⟨[], []⟩ [key subject]
      fun n => Iff.rfl
    rwa [Walk.Visitor.visitAll_cons, Walk.Visitor.visitAll] at h
  rw [hv, found_foldl_enter, whatIs]
  exact foldl_reportAttributes key facts [] _

/-! Who has an attribute -/

/-- On the way back each node is found that is entered. -/
def tracer : Walk.Visitor Text (List Text) where
  seen found := found
  enter found k := found ++ [k]
  mem_seen_enter found k n := by simp [or_comm]

/-- A visit on the way back. -/
def trace (key : Text → Text) (facts : Facts) (found : List Text) (k : Text) : List Text :=
  (tracer.visit (backward key facts) found k).1

/-- A visit does nothing if the node was found before. Otherwise it finds the node, and then it
visits the subjects that have an attribute with this key. -/
theorem trace_eq (key : Text → Text) (facts : Facts) (found : List Text) (k : Text) :
    trace key facts found k = if k ∈ found then found
      else (facts.holders key k).foldl (trace key facts) (found ++ [k]) := by
  split
  · rename_i hk
    exact tracer.visit_of_mem hk
  · rename_i hk
    rw [trace, tracer.visit_of_notMem hk, next_backward]
    rfl

theorem foldl_trace (key : Text → Text) (facts : Facts) (attr : Text) :
    (facts.holders key (key attr)).foldl (trace key facts) [] = facts.whoIs key attr := by
  have h := tracer.visitAll_eq_order (backward key facts) [] (facts.holders key (key attr))
    fun n => Iff.rfl
  rw [Walk.Visitor.visitAll_eq_foldl] at h
  have hw : facts.whoIs key attr =
      Walk.order (backward key facts) [] (facts.holders key (key attr)) := by
    rw [whoIs, next_backward]
  rw [hw]
  exact h.trans (foldl_reportNode [] _)

/-- The loops for both questions find what the recursions find, in the same order: for a subject, by
one visit to its node; for an attribute, by visits to the subjects that have it. -/
theorem found_by_visits (key : Text → Text) (facts : Facts) :
    (∀ t k, explore key facts t k = if k ∈ t.visited then t
      else (facts.attributes k).foldl (fun t a => explore key facts t (key a))
        ⟨k :: t.visited, (facts.attributes k).foldl (mention key) t.found⟩) ∧
    (∀ subject, ∃ visited found, found = (explore key facts ⟨[], []⟩ (key subject)).found ∧
      facts.whatIs? key .guarded subject = some found ∧
      (Walk.Loop.turn (forward key facts)
        fun found k => (facts.attributes k).foldl (mention key) found)^[
          Walk.pending (forward key facts) [] + 1] ⟨[key subject], [], []⟩ =
        ⟨[], visited, found⟩) ∧
    (∀ found k, trace key facts found k = if k ∈ found then found
      else (facts.holders key k).foldl (trace key facts) (found ++ [k])) ∧
    ∀ attr, ∃ visited found, found = (facts.holders key (key attr)).foldl (trace key facts) [] ∧
      facts.whoIs? key .guarded attr = some found ∧
      (Walk.Loop.turn (backward key facts) reportNode)^[
        Walk.pending (backward key facts) [] +
          (Walk.next (backward key facts) (key attr)).length]
        ⟨Walk.next (backward key facts) (key attr), [], []⟩ = ⟨[], visited, found⟩ := by
  refine ⟨explore_eq key facts, ?_, trace_eq key facts, ?_⟩
  · intro subject
    obtain ⟨visited, hv⟩ := turn_whatIs key facts subject
    rw [reportAttributes_eq] at hv
    exact ⟨visited, facts.whatIs key subject, (found_explore key facts subject).symm, rfl, hv⟩
  · intro attr
    obtain ⟨visited, hv⟩ := turn_whoIs key facts attr
    exact ⟨visited, facts.whoIs key attr, (foldl_trace key facts attr).symm, rfl, hv⟩

end Syllogism.Facts
