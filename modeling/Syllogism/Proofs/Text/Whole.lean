import Syllogism.Lexicon.Basic
import Syllogism.Proofs.Text.Marks
import Syllogism.Proofs.Text.Upper
import Syllogism.Proofs.Text.Utf8

/-! Texts without halves: their parts have none, and neither do their capitals. -/

namespace Syllogism

namespace Text

variable {s t : Text} {a c : CodePoint}

theorem isWhole_iff : t.isWhole = true ↔ ∀ c ∈ t, c.isHalf = false := by
  simp [isWhole]

theorem isWhole_of_infix (h : s <:+: t) (ht : t.isWhole) : s.isWhole := by
  rw [isWhole_iff] at ht ⊢
  intro c hc
  exact ht c (h.subset hc)

theorem infix_stripMarks (t : Text) : stripMarks t <:+: t := by
  rw [stripMarks_eq]
  have hp := prefix_dropEndWhile isClosing (trimStart t)
  exact hp.isInfix.trans (List.dropWhile_suffix isBlank).isInfix

theorem infix_dropArticle (articles : List Text) (t : Text) : dropArticle articles t <:+: t := by
  simp only [dropArticle]
  split
  · exact infix_trim t
  · split
    · exact infix_trim t
    · exact (infix_trim _).trans (List.drop_suffix _ t).isInfix

theorem code_of_isHalf (h : c.isHalf = true) : 0xD800 ≤ c.code ∧ c.code < 0xE000 := by
  cases c with
  | char c => cases h
  | half n =>
    have hn := n.isLt
    simp only [CodePoint.code]
    omega

/-- No capital has the code of a half. -/
theorem isHalf_of_mem_apply (h : c ∈ upperCase.apply a) (ha : a.isHalf = false) :
    c.isHalf = false := by
  have hm : ∀ r ∈ upperCase.images, r.last < 0xD800 ∨ 0xE000 ≤ r.first := by decide +kernel
  rcases final_upperCase.inRange.mem_apply h with ⟨-, rfl⟩ | ⟨r, hr, hf, hl, -⟩
  · exact ha
  · refine Bool.eq_false_iff.mpr fun hc => ?_
    have hcode := code_of_isHalf hc
    have hrange := hm r hr
    omega

theorem isWhole_upper (ht : t.isWhole) : (upper t).isWhole := by
  rw [isWhole_iff] at ht ⊢
  intro c hc
  obtain ⟨a, ha, hca⟩ := List.mem_flatMap.mp hc
  exact isHalf_of_mem_apply hca (ht a ha)

end Text

end Syllogism
