import Syllogism.Proofs.Text.CaseMap
import Syllogism.Proofs.Text.Trim
import Syllogism.Text.Upper

/-! Capitals have no capitals of their own, and no letter becomes white space. -/

namespace Syllogism.Text

variable {t : Text} {a c : CodePoint}

theorem final_upperCase : upperCase.Final where
  inRange := by decide +kernel
  spared := by
    simp only [CaseMap.spares, Run.misses_eq_rec]
    decide +kernel

/-- Capitals come behind all signs and figures, and stay clear of white space. -/
theorem images_upperCase : ∀ r ∈ upperCase.images, 0x3F < r.first ∧
    (r.last < 0x85 ∨ 0xA0 < r.first) ∧ (r.last < 0x1680 ∨ 0x1680 < r.first) ∧
    (r.last < 0x2000 ∨ 0x205F < r.first) ∧ (r.last < 0x3000 ∨ 0x3000 < r.first) := by
  decide +kernel

theorem not_blank_of_mem_apply (h : c ∈ upperCase.apply a) (ha : isBlank a = false) :
    isBlank c = false := by
  rcases final_upperCase.inRange.mem_apply h with ⟨-, rfl⟩ | ⟨r, hr, hf, hl, -⟩
  · exact ha
  · have := images_upperCase r hr
    simp only [isBlank, Bool.or_eq_false_iff, Bool.and_eq_false_iff, decide_eq_false_iff_not,
      beq_eq_false_iff_ne]
    omega

/-- What comes before the letters is the capital of nothing else. -/
theorem eq_of_mem_apply_of_le (h : c ∈ upperCase.apply a) (hc : c.code ≤ 0x3F) : c = a := by
  rcases final_upperCase.inRange.mem_apply h with ⟨-, hc⟩ | ⟨r, hr, hf, -⟩
  · exact hc
  · have := (images_upperCase r hr).1
    omega

theorem mem_of_mem_upper_of_le (h : c ∈ upper t) (hc : c.code ≤ 0x3F) : c ∈ t := by
  obtain ⟨a, ha, hca⟩ := List.mem_flatMap.mp h
  obtain rfl := eq_of_mem_apply_of_le hca hc
  exact ha

theorem upperCase_apply_ne_nil (c : CodePoint) : upperCase.apply c ≠ [] :=
  CaseMap.apply_ne_nil (by decide)

theorem upper_eq_self (h : ∀ c ∈ t, upperCase.apply c = [c]) : upper t = t := CaseMap.map_eq_self h

theorem upper_upper (t : Text) : upper (upper t) = upper t := final_upperCase.map_map t

theorem upper_ne_nil (h : t ≠ []) : upper t ≠ [] := by
  obtain ⟨a, t, rfl⟩ := List.exists_cons_of_ne_nil h
  exact List.append_ne_nil_of_left_ne_nil (upperCase_apply_ne_nil a) _

/-- A text keeps white space off its ends when it is put in capitals. -/
theorem Trimmed.upper (h : Trimmed t) : Trimmed (upper t) := by
  constructor
  · intro c hc
    cases t with
    | nil => cases hc
    | cons a t =>
      obtain ⟨b, bs, hb⟩ := List.exists_cons_of_ne_nil (upperCase_apply_ne_nil a)
      rw [Text.upper, CaseMap.map_cons, hb, List.cons_append, List.head?_cons,
        Option.some.injEq] at hc
      refine not_blank_of_mem_apply ?_ (h.1 a rfl)
      rw [hb, hc]
      exact List.mem_cons_self
  · intro c hc
    rcases List.eq_nil_or_concat t with rfl | ⟨s, a, rfl⟩
    · cases hc
    · rw [List.concat_eq_append] at h hc
      rw [Text.upper, CaseMap.map_append, CaseMap.map_cons, CaseMap.map_nil, List.append_nil,
        ← getLast?_of_suffix (List.suffix_append _ _) (upperCase_apply_ne_nil a)] at hc
      exact not_blank_of_mem_apply (List.mem_of_getLast? hc) (h.2 a List.getLast?_concat)

end Syllogism.Text
