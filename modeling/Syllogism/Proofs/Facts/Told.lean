import Mathlib.Data.List.Nodup
import Syllogism.Proofs.Lexicon.Key
import Syllogism.Proofs.Facts.Query

/-! What holds of facts that were told, one after the other. -/

namespace Syllogism

/-- A phrase as a sentence leaves it: not blank, without white space around it, and without a mark
behind it. -/
structure Text.IsPhrase (t : Text) : Prop where
  ne_nil : t ≠ []
  trimmed : t.Trimmed
  not_mark : ∀ c, t.getLast? = some c → Text.isMark c = false

namespace Facts

variable {key : Text → Text} {facts : Facts} {j k n subject attr : Text} {attributes : List Text}

theorem attributes_put : Facts.attributes (facts.put k attributes) n =
    if n = k then attributes else facts.attributes n := by
  rw [Facts.attributes, OrderedMap.get?_put]
  split
  · rfl
  · rfl

theorem mem_keys_put : n ∈ (facts.put k attributes).keys ↔ n = k ∨ n ∈ facts.keys := by
  rw [OrderedMap.keys_put]
  split
  · rename_i hk
    constructor
    · exact .inr
    · rintro (rfl | hn)
      · exact hk
      · exact hn
  · rw [List.mem_append, List.mem_singleton, or_comm]

/-- A fact that joins others has a known subject, and none of them has the key of its attribute. -/
theorem of_outcome_joined (h : facts.outcome key subject attr = .joined) :
    key subject ∈ facts.keys ∧ key attr ∉ (facts.attributes (key subject)).map key := by
  unfold outcome at h
  split at h
  · cases h
  · rename_i known hg
    split at h
    · cases h
    · rename_i ha
      constructor
      · rw [← OrderedMap.contains_iff_mem_keys, OrderedMap.contains, hg]
        rfl
      · intro hm
        rw [Facts.attributes, hg] at hm
        obtain ⟨a, ham, hk⟩ := List.mem_map.mp hm
        exact ha (List.any_eq_true.mpr ⟨a, ham, beq_iff_eq.mpr hk⟩)

theorem leads_iff_mem_map : Leads key facts j k ↔ k ∈ (facts.attributes j).map key :=
  List.mem_map.symm

theorem notMem_keys_of_outcome (h : facts.outcome key subject attr = .newSubject) :
    key subject ∉ facts.keys := by
  unfold outcome at h
  split at h
  · rename_i hg
    rw [← OrderedMap.contains_iff_mem_keys, OrderedMap.contains, hg]
    simp
  · split at h <;> cases h

theorem leads_of_outcome (h : facts.outcome key subject attr = .known) :
    Leads key facts (key subject) (key attr) := by
  unfold outcome at h
  split at h
  · cases h
  · rename_i attributes hg
    split at h
    · rename_i ha
      have hm : key attr ∈ attributes.map key := by simpa using ha
      rwa [leads_iff_mem_map, Facts.attributes, hg]
    · cases h

theorem attributes_of_notMem (h : k ∉ facts.keys) : facts.attributes k = [] := by
  by_contra hne
  obtain ⟨a, ha⟩ := List.exists_mem_of_ne_nil _ hne
  exact h (mem_keys_of_mem_attributes ha)

/-- All that telling a fact does. Either it is news or the subject leads to it already. -/
theorem tell_cases (key : Text → Text) (facts : Facts) (subject attr : Text) :
    (¬ Leads key facts (key subject) (key attr) ∧
      (facts.outcome key subject attr).isNews = true ∧
      facts.tell key subject attr =
        facts.put (key subject) (facts.attributes (key subject) ++ [attr])) ∨
    (Leads key facts (key subject) (key attr) ∧ facts.outcome key subject attr = .known ∧
      facts.tell key subject attr = facts) := by
  cases h : facts.outcome key subject attr with
  | newSubject =>
    have ha := attributes_of_notMem (notMem_keys_of_outcome h)
    refine .inl ⟨?_, rfl, ?_⟩
    · simp [leads_iff_mem_map, ha]
    · simp [tell, h, ha]
  | known => exact .inr ⟨leads_of_outcome h, rfl, by simp [tell, h]⟩
  | joined =>
    refine .inl ⟨?_, rfl, by simp [tell, h]⟩
    rw [leads_iff_mem_map]
    exact (of_outcome_joined h).2

theorem known_of_leads (h : Leads key facts (key subject) (key attr)) :
    facts.outcome key subject attr = .known ∧ facts.tell key subject attr = facts := by
  obtain ⟨hn, -⟩ | ⟨-, ho, ht⟩ := tell_cases key facts subject attr
  · exact absurd h hn
  · exact ⟨ho, ht⟩

/-- No subject stands twice or is blank, each is its own key, and each has attributes, which are
phrases with keys of their own. -/
structure Tidy (key : Text → Text) (facts : Facts) : Prop where
  nodup : facts.keys.Nodup
  subject : ∀ k ∈ facts.keys, k ≠ [] ∧ plainKey k = k
  attributes : ∀ k ∈ facts.keys, facts.attributes k ≠ [] ∧ ((facts.attributes k).map key).Nodup
  phrase : ∀ k ∈ facts.keys, ∀ a ∈ facts.attributes k, a.IsPhrase

theorem tidy_empty : Tidy key OrderedMap.empty where
  nodup := List.nodup_nil
  subject _ hk := absurd hk List.not_mem_nil
  attributes _ hk := absurd hk List.not_mem_nil
  phrase _ hk := absurd hk List.not_mem_nil

theorem Tidy.put (h : Tidy key facts) (hk : k ≠ [] ∧ plainKey k = k)
    (ha : attributes ≠ [] ∧ (attributes.map key).Nodup) (hp : ∀ a ∈ attributes, a.IsPhrase) :
    Tidy key (facts.put k attributes) where
  nodup := (facts.put k attributes).nodup
  subject n hn := by
    rcases mem_keys_put.mp hn with rfl | hn
    · exact hk
    · exact h.subject n hn
  attributes n hn := by
    rw [attributes_put]
    split
    · exact ha
    · rename_i hne
      exact h.attributes n ((mem_keys_put.mp hn).resolve_left hne)
  phrase n hn := by
    rw [attributes_put]
    split
    · exact hp
    · rename_i hne
      exact h.phrase n ((mem_keys_put.mp hn).resolve_left hne)

theorem Tidy.nodup_attributes (h : Tidy key facts) (k : Text) :
    ((facts.attributes k).map key).Nodup := by
  by_cases hk : k ∈ facts.keys
  · exact (h.attributes k hk).2
  · rw [attributes_of_notMem hk]
    exact List.nodup_nil

theorem Tidy.tell (h : Tidy key facts) (hs : key subject ≠ [] ∧ plainKey (key subject) = key subject)
    (ha : attr.IsPhrase) : Tidy key (facts.tell key subject attr) := by
  obtain ⟨hn, -, ht⟩ | ⟨-, -, ht⟩ := tell_cases key facts subject attr
  · rw [leads_iff_mem_map] at hn
    rw [ht]
    refine h.put hs ⟨List.append_ne_nil_of_right_ne_nil _ (List.cons_ne_nil _ _), ?_⟩ ?_
    · rw [List.map_append, List.map_singleton, ← List.concat_eq_append]
      exact (h.nodup_attributes _).concat hn
    · intro a hm
      rcases List.mem_append.mp hm with hm | hm
      · exact h.phrase _ (mem_keys_of_mem_attributes hm) a hm
      · rw [List.mem_singleton.mp hm]
        exact ha
  · rwa [ht]

end Facts

end Syllogism
