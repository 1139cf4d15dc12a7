import Syllogism.Proofs.Facts.TellAll
import Syllogism.Proofs.Text.Folded

/-! Facts told once more, in another case. They are known if keys see the two spellings as one, and for
a few capitals they do not. -/

namespace Syllogism.Facts

open Text

variable {facts : Facts} {key : Text → Text} {subject subject' attr attr' : Text}

/-- A fact with the keys of one that was told is known. -/
theorem known_of_keys (facts : Facts) (hs : key subject' = key subject)
    (ha : key attr' = key attr) :
    let told := facts.tell key subject attr
    told.outcome key subject' attr' = .known ∧ told.tell key subject' attr' = told := by
  intro told
  exact known_of_leads (leads_tell.mpr (.inr ⟨hs.symm, ha.symm⟩))

/-- Unless it has the keys of the fact that was told, a fact that would have been news still is. -/
theorem isNews_of_keys (hk : ¬ (key subject' = key subject ∧ key attr' = key attr))
    (hn : (facts.outcome key subject' attr').isNews = true) :
    let told := facts.tell key subject attr
    (told.outcome key subject' attr').isNews = true ∧ told.tell key subject' attr' ≠ told := by
  intro told
  have hl : ¬ Leads key told (key subject') (key attr') := by
    rw [leads_tell, not_or]
    exact ⟨isNews_outcome.mp hn, fun h => hk ⟨h.1.symm, h.2.symm⟩⟩
  refine ⟨isNews_outcome.mpr hl, fun ht => hl ?_⟩
  -- what was told last is there
  rw [← ht]
  exact leads_tell.mpr (.inr ⟨rfl, rfl⟩)

/-- Two phrases with one folded form have one key, if each capital in them is the capital of its own
folded form: then a fact is known in any case once it is told. If that holds of one spelling only,
the other one is news. -/
theorem known_in_any_case (facts : Facts) (hs : fold subject' = fold subject)
    (ha : fold attr' = fold attr) :
    let told := facts.tell plainKey subject attr
    (Paired subject → Paired subject' → Paired attr → Paired attr' →
      told.outcome plainKey subject' attr' = .known ∧
        told.tell plainKey subject' attr' = told) ∧
    (¬ (Paired subject' ↔ Paired subject) ∨ ¬ (Paired attr' ↔ Paired attr) →
      (facts.outcome plainKey subject' attr').isNews = true →
      (told.outcome plainKey subject' attr').isNews = true ∧
        told.tell plainKey subject' attr' ≠ told) := by
  intro told
  constructor
  · intro hp hp' hq hq'
    exact known_of_keys facts (plainKey_eq_of_fold_eq hp' hp hs) (plainKey_eq_of_fold_eq hq' hq ha)
  · intro hpaired hn
    refine isNews_of_keys ?_ hn
    rintro ⟨hks, hka⟩
    rcases hpaired with hp | hq
    · exact hp (paired_congr hks)
    · exact hq (paired_congr hka)

/-- ß has the capitals SS of its folded form, and ẞ has not. -/
theorem known_in_any_case_strasse :
    let told := tell plainKey OrderedMap.empty "Straße" "via"
    fold "STRASSE" = fold "Straße" ∧ fold "Via" = fold "via" ∧
    told.outcome plainKey "STRASSE" "Via" = .known ∧ told.tell plainKey "STRASSE" "Via" = told ∧
    fold "STRAẞE" = fold "Straße" ∧ (told.outcome plainKey "STRAẞE" "Via").isNews = true := by
  intro told
  have hs : fold "STRASSE" = fold "Straße" := by decide +kernel
  have hs' : fold "STRAẞE" = fold "Straße" := by decide +kernel
  have ha : fold "Via" = fold "via" := by decide +kernel
  have hp : Paired "Straße" ∧ Paired "STRASSE" ∧ ¬ Paired "STRAẞE" := by decide +kernel
  have hq : Paired "via" ∧ Paired "Via" := by decide +kernel
  obtain ⟨hknown, -⟩ := known_in_any_case OrderedMap.empty hs ha
  obtain ⟨-, hnews⟩ := known_in_any_case OrderedMap.empty hs' ha
  obtain ⟨ho, ht⟩ := hknown hp.1 hp.2.1 hq.1 hq.2
  have hn := hnews (.inl fun h => hp.2.2 (h.mpr hp.1)) (by decide +kernel)
  exact ⟨hs, ha, ho, ht, hs', hn.1⟩

/-- A phrase in capitals, and then in small letters: it makes a subject, and an attribute, of its own. -/
theorem capital_told_apart :
    let subjects := tell plainKey OrderedMap.empty "STRAẞE" "via"
    let attributes := tell plainKey OrderedMap.empty "via" "STRAẞE"
    fold "straße" = fold "STRAẞE" ∧
    subjects.outcome plainKey "straße" "via" = .newSubject ∧
    subjects.tell plainKey "straße" "via" ≠ subjects ∧
    attributes.outcome plainKey "via" "straße" = .joined ∧
    attributes.tell plainKey "via" "straße" ≠ attributes := by
  decide +kernel

end Syllogism.Facts
