import Syllogism.Proofs.Facts.Stored
import Syllogism.Proofs.Sentence.Parts

/-! Facts with halves in them come from facts or from a sentence with halves. -/

namespace Syllogism

namespace Facts

variable {facts : Facts}

theorem isWhole_iff_mentions :
    facts.isWhole = true ↔ ∀ t, facts.Mentions t → t.isWhole = true := by
  simp only [isWhole, List.all_eq_true, Bool.and_eq_true]
  constructor
  · rintro h t (hk | ⟨k, ha⟩)
    · obtain ⟨e, he, rfl⟩ := List.mem_map.mp hk
      exact (h e he).1
    · rw [attributes] at ha
      cases hg : facts.get? k with
      | none =>
        rw [hg] at ha
        cases ha
      | some attributes =>
        rw [hg] at ha
        exact (h _ (OrderedMap.get?_eq_some_iff.mp hg)).2 t ha
  · intro h e he
    have hg : facts.attributes e.1 = e.2 := by
      rw [attributes, OrderedMap.get?_eq_some_iff.mpr he]
      rfl
    refine ⟨h e.1 (.inl (List.mem_map_of_mem he)), ?_⟩
    intro t ht
    exact h t (.inr ⟨e.1, hg.symm ▸ ht⟩)

end Facts

/-- A sentence without halves brings none into the facts. -/
theorem Conversation.isWhole_respond {c : Conversation} (hc : c.key = c.lexicon.key) {facts : Facts}
    {sentence : Text} (h : facts.isWhole) (hs : sentence.isWhole) :
    (c.respond facts sentence).facts.isWhole := by
  rw [Facts.isWhole_iff_mentions] at h ⊢
  intro t ht
  rcases mentions_respond hc ht with ht | ⟨part, hpart, ht⟩
  · exact h t ht
  · have hw := Text.isWhole_of_infix hpart hs
    rcases ht with rfl | rfl
    · exact hw
    · exact Text.isWhole_upper hw

end Syllogism
