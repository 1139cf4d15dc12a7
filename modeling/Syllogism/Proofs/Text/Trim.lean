import Syllogism.Text.Blank

/-! What stands at the ends of a text when white space and marks are cut off. -/

namespace Syllogism.Text

variable {s t : Text} {c : CodePoint}

theorem of_head?_dropWhile {p : CodePoint → Bool} (h : (t.dropWhile p).head? = some c) :
    p c = false := by
  have hp := List.head?_dropWhile_not p t
  rw [h] at hp
  exact hp

theorem getLast?_of_suffix (h : s <:+ t) (hs : s ≠ []) : s.getLast? = t.getLast? := by
  rw [List.getLast?_eq_some_getLast hs, List.getLast?_eq_some_getLast (h.ne_nil hs), h.getLast hs]

theorem prefix_dropEndWhile (p : CodePoint → Bool) (t : Text) : dropEndWhile p t <+: t := by
  rw [dropEndWhile, ← List.reverse_suffix, List.reverse_reverse]
  exact List.dropWhile_suffix p

/-- A text keeps an end that does not satisfy `p`. -/
theorem dropEndWhile_eq_self {p : CodePoint → Bool} (h : t.getLast? = some c) (hc : p c = false) :
    dropEndWhile p t = t := by
  rw [← List.head?_reverse] at h
  obtain ⟨rest, hr⟩ := List.head?_eq_some_iff.mp h
  rw [dropEndWhile, hr, List.dropWhile_cons_of_neg (by rw [hc]; exact Bool.false_ne_true), ← hr,
    List.reverse_reverse]

/-- A text that ends with no white space keeps its last character when it is trimmed. -/
theorem getLast?_trim (ht : t.getLast? = some c) (hc : isBlank c = false) (hn : trim t ≠ []) :
    (trim t).getLast? = some c := by
  have hs : trimStart t ≠ [] := by
    intro hs
    rw [trim, hs] at hn
    exact hn rfl
  have hl : (trimStart t).getLast? = some c := by
    rw [← ht]
    exact getLast?_of_suffix (List.dropWhile_suffix isBlank) hs
  rw [trim, trimEnd, dropEndWhile_eq_self hl hc, hl]

theorem not_blank_of_getLast?_trim (h : (trim t).getLast? = some c) : isBlank c = false := by
  rw [trim, trimEnd, dropEndWhile, List.getLast?_reverse] at h
  exact of_head?_dropWhile h

theorem of_head?_dropMarks (ht : ∀ c, t.head? = some c → isBlank c = false)
    (h : (dropMarks t).head? = some c) : isBlank c = false ∧ isMark c = false := by
  fun_induction dropMarks t with
  | case1 => cases h
  | case2 a rest ha ih => exact ih (fun c => of_head?_dropWhile) h
  | case3 a rest ha =>
    obtain rfl := Option.some.inj h
    exact ⟨ht a rfl, Bool.eq_false_iff.mpr ha⟩

/-- What is left of a sentence ends neither with white space nor with a mark. -/
theorem of_getLast?_stripMarks (h : (stripMarks t).getLast? = some c) :
    isBlank c = false ∧ isMark c = false := by
  rw [stripMarks, List.getLast?_reverse] at h
  refine of_head?_dropMarks (fun c hc => ?_) h
  rw [List.head?_reverse] at hc
  exact not_blank_of_getLast?_trim hc

/-- Neither end of the text is white space. -/
def Trimmed (t : Text) : Prop :=
  (∀ c, t.head? = some c → isBlank c = false) ∧ ∀ c, t.getLast? = some c → isBlank c = false

theorem trimmed_trim (t : Text) : Trimmed (trim t) := by
  refine ⟨?_, fun c => not_blank_of_getLast?_trim⟩
  intro c hc
  have hp : trim t <+: trimStart t := prefix_dropEndWhile isBlank _
  have hs : (trimStart t).head? = some c := by
    obtain ⟨rest, hr⟩ := hp
    rw [← hr, List.head?_append, hc]
    rfl
  exact of_head?_dropWhile hs

theorem Trimmed.trimStart_eq (h : Trimmed t) : trimStart t = t := by
  cases t with
  | nil => rfl
  | cons a t =>
    rw [trimStart, List.dropWhile_cons_of_neg]
    rw [h.1 a rfl]
    exact Bool.false_ne_true

theorem Trimmed.trim_eq (h : Trimmed t) : trim t = t := by
  rw [trim, h.trimStart_eq, trimEnd]
  cases ht : t.getLast? with
  | none =>
    rw [List.getLast?_eq_none_iff.mp ht]
    rfl
  | some c => exact dropEndWhile_eq_self ht (h.2 c ht)

end Syllogism.Text
