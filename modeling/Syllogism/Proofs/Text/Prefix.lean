import Mathlib.Data.List.Find
import Syllogism.Proofs.Text.CaseMap
import Syllogism.Text.Prefix

/-! Openings: their folded form opens the folded text. Where letters fold to sequences, that is not
enough for an opening, since it is cut off by its length. -/

namespace Syllogism.Text

variable {p s t u : Text} {openings : List Text}

theorem inRange_foldCase : foldCase.InRange := by decide +kernel

theorem fold_append (s t : Text) : fold (s ++ t) = fold s ++ fold t := foldCase.map_append s t

theorem opensWith_eq_true_iff : opensWith t p = true ↔
    p ≠ [] ∧ p.length ≤ t.length ∧ fold (t.take p.length) = fold p := by
  simp only [opensWith, Bool.and_eq_true, Bool.not_eq_true', List.isEmpty_eq_false_iff,
    decide_eq_true_eq, beq_iff_eq, and_assoc]

/-- What is left of the text when the opening is cut off folds to what is left of its folded form. -/
theorem fold_eq_of_opensWith (h : opensWith t p = true) :
    fold t = fold p ++ fold (t.drop p.length) := by
  rw [← (opensWith_eq_true_iff.mp h).2.2, ← fold_append, List.take_append_drop]

theorem fold_prefix_of_opensWith (h : opensWith t p = true) : fold p <+: fold t :=
  ⟨_, (fold_eq_of_opensWith h).symm⟩

theorem opensWith_append_self (hp : p ≠ []) (s : Text) : opensWith (p ++ s) p = true := by
  simp [opensWith, hp]

/-- Of two texts neither is how the other one starts. -/
def Apart (s t : Text) : Prop := ¬ s <+: t ∧ ¬ t <+: s

instance (s t : Text) : Decidable (Apart s t) := inferInstanceAs (Decidable (_ ∧ _))

theorem opensWith_append_of_apart (h : Apart (fold p) (fold u)) (s : Text) :
    opensWith (u ++ s) p = false := by
  refine Bool.eq_false_iff.mpr fun ho => ?_
  have hp : fold p <+: fold u ++ fold s := fold_append u s ▸ fold_prefix_of_opensWith ho
  rcases List.prefix_or_prefix_of_prefix hp (List.prefix_append _ _) with hpu | hup
  · exact h.1 hpu
  · exact h.2 hup

theorem opening?_append_eq_none (h : ∀ p ∈ openings, Apart (fold p) (fold u)) (s : Text) :
    opening? openings (u ++ s) = none := by
  rw [opening?, List.find?_eq_none]
  intro p hp
  simp [opensWith_append_of_apart (h p hp)]

/-! Letters that fold to one -/

/-- No letter of the text folds to a sequence. -/
def FoldsSingly (t : Text) : Prop := ∀ c ∈ t, (foldCase.apply c).length = 1

instance (t : Text) : Decidable (FoldsSingly t) :=
  inferInstanceAs (Decidable (∀ c ∈ t, (foldCase.apply c).length = 1))

theorem FoldsSingly.length_fold (h : FoldsSingly t) : (fold t).length = t.length := by
  induction t with
  | nil => rfl
  | cons c t ih =>
    obtain ⟨hc, ht⟩ := List.forall_mem_cons.mp h
    rw [fold, CaseMap.map_cons, List.length_append, hc, ← fold, ih ht, List.length_cons, Nat.add_comm]

/-- If no letter of the opening and of the slice as long as it folds to a sequence, then the folded
forms say whether it is an opening. -/
theorem opensWith_iff_prefix (hn : p ≠ []) (hp : FoldsSingly p)
    (ht : FoldsSingly (t.take p.length)) : opensWith t p = true ↔ fold p <+: fold t := by
  refine ⟨fold_prefix_of_opensWith, fun h => ?_⟩
  have hle : p.length ≤ t.length := by
    by_contra hlt
    rw [List.take_of_length_le (Nat.le_of_not_le hlt)] at ht
    have hlength := h.length_le
    rw [hp.length_fold, ht.length_fold] at hlength
    exact hlt hlength
  have htake : fold (t.take p.length) <+: fold t := by
    conv_rhs => rw [← List.take_append_drop p.length t, fold_append]
    exact List.prefix_append _ _
  have hlength : (fold (t.take p.length)).length = (fold p).length := by
    rw [hp.length_fold, ht.length_fold, List.length_take_of_le hle]
  have heq := (List.prefix_of_prefix_length_le htake h (Nat.le_of_eq hlength)).eq_of_length hlength
  exact opensWith_eq_true_iff.mpr ⟨hn, hle, heq⟩

/-- What follows an opening is cut off at the right place. Where letters fold to one, the folded forms
say what an opening is, so the one that is found is the first whose folded form opens the folded
text. -/
theorem opens_as_folded (t : Text) :
    (∀ p, opensWith t p = true → fold t = fold p ++ fold (t.drop p.length)) ∧
    (∀ p, p ≠ [] → FoldsSingly p → FoldsSingly (t.take p.length) →
      (opensWith t p = true ↔ fold p <+: fold t)) ∧
    ∀ openings, (∀ p ∈ openings, p ≠ [] ∧ FoldsSingly p ∧ FoldsSingly (t.take p.length)) →
      opening? openings t = openings.find? fun p => decide (fold p <+: fold t) := by
  refine ⟨fun p => fold_eq_of_opensWith, fun p => opensWith_iff_prefix, ?_⟩
  intro openings h
  refine List.find?_congr fun p hp => ?_
  obtain ⟨hn, hfold, ht⟩ := h p hp
  rw [Bool.eq_iff_iff, decide_eq_true_iff]
  exact opensWith_iff_prefix hn hfold ht

/-- Behind the opening a letter may fold to a sequence. -/
theorem opens_as_folded_strasse :
    opening? ["PARLAMI DE", "COSA SAI SU", "COSA"] "cosa sai su Straße" = some "COSA SAI SU" ∧
    fold "cosa sai su Straße" = fold "COSA SAI SU" ++ fold " Straße" := by
  obtain ⟨hcut, -, hfind⟩ := opens_as_folded "cosa sai su Straße"
  have hfirst : opening? ["PARLAMI DE", "COSA SAI SU", "COSA"] "cosa sai su Straße" =
      some "COSA SAI SU" := by
    rw [hfind _ (by decide +kernel)]
    decide +kernel
  exact ⟨hfirst, hcut "COSA SAI SU" (List.find?_some hfirst)⟩

/-- Within the opening it may not: the ligature is one letter of the text and two of its folded form. -/
example : fold "FINE" <+: fold "ﬁne" ∧ opensWith "ﬁne" "FINE" = false := by decide +kernel

end Syllogism.Text
