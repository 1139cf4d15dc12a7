import Mathlib.Data.List.DropRight
import Syllogism.Proofs.Text.Trim

/-! A sentence without its closing marks: what stands behind the last word goes, in whatever order
marks and white space come. -/

namespace Syllogism.Text

variable {s t u v : Text} {c : CodePoint} {p : CodePoint → Bool}

/-- What may close a sentence. -/
def isClosing (c : CodePoint) : Bool := isBlank c || isMark c

theorem dropMarks_dropWhile (t : Text) :
    dropMarks (t.dropWhile isBlank) = t.dropWhile isClosing := by
  induction t with
  | nil => simp [dropMarks]
  | cons c t ih =>
    by_cases hb : isBlank c = true
    · simp [isClosing, hb, ih]
    · by_cases hm : isMark c = true
      · simp [isClosing, hb, hm, dropMarks, ih]
      · simp [isClosing, hb, hm, dropMarks]

theorem stripMarks_eq (t : Text) : stripMarks t = dropEndWhile isClosing (trimStart t) := by
  have hr : (trim t).reverse = (trimStart t).reverse.dropWhile isBlank := by
    rw [trim, trimEnd, dropEndWhile, List.reverse_reverse]
  rw [stripMarks, hr, dropMarks_dropWhile, dropEndWhile]

/-! What stays at the ends -/

theorem trimStart_cons_of_blank (hc : isBlank c = true) : trimStart (c :: t) = trimStart t := by
  simp [trimStart, hc]

theorem trimStart_cons (hc : isBlank c = false) : trimStart (c :: t) = c :: t := by
  simp [trimStart, hc]

theorem trimStart_append (hu : blank u = true) (t : Text) : trimStart (u ++ t) = trimStart t :=
  List.dropWhile_append_of_pos (List.all_eq_true.mp hu)

theorem dropEndWhile_append (p : CodePoint → Bool) (u s : Text) : dropEndWhile p (u ++ s) =
    if dropEndWhile p s = [] then dropEndWhile p u else u ++ dropEndWhile p s := by
  simp only [dropEndWhile, List.reverse_append, List.dropWhile_append, List.reverse_eq_nil_iff,
    List.isEmpty_iff]
  split <;> simp

theorem dropEndWhile_of_all (hv : v.all p = true) : dropEndWhile p v = [] :=
  List.rdropWhile_eq_nil_iff.mpr (List.all_eq_true.mp hv)

theorem dropEndWhile_append_of_all (hv : v.all p = true) (t : Text) :
    dropEndWhile p (t ++ v) = dropEndWhile p t := by
  rw [dropEndWhile_append, if_pos (dropEndWhile_of_all hv)]

/-- What goes is the longest ending in which `p` holds throughout. -/
theorem exists_dropEndWhile (p : CodePoint → Bool) (t : Text) :
    ∃ v, t = dropEndWhile p t ++ v ∧ v.all p = true ∧
      ∀ v', v' <:+ t → v'.all p = true → v' <:+ v := by
  have ht : t = dropEndWhile p t ++ t.rtakeWhile p := List.rdropWhile_append_rtakeWhile.symm
  refine ⟨t.rtakeWhile p, ht, List.all_eq_true.mpr fun c => List.mem_rtakeWhile_imp, ?_⟩
  rintro v' ⟨w, hw⟩ hv'
  obtain ⟨x, hx⟩ := prefix_dropEndWhile p w
  have h : dropEndWhile p w ++ (x ++ v') = dropEndWhile p w ++ t.rtakeWhile p := by
    calc dropEndWhile p w ++ (x ++ v') = t := by rw [← List.append_assoc, hx, hw]
      _ = dropEndWhile p t ++ t.rtakeWhile p := ht
      _ = dropEndWhile p w ++ t.rtakeWhile p := by rw [← hw, dropEndWhile_append_of_all hv']
  exact ⟨x, List.append_cancel_left h⟩

theorem of_getLast?_dropEndWhile (h : (dropEndWhile p t).getLast? = some c) : p c = false := by
  rw [dropEndWhile, List.getLast?_reverse] at h
  exact of_head?_dropWhile h

theorem head?_of_head?_dropEndWhile (h : (dropEndWhile p t).head? = some c) : t.head? = some c := by
  obtain ⟨rest, hr⟩ := prefix_dropEndWhile p t
  rw [← hr, List.head?_append, h]
  rfl

/-- An opening that neither starts with white space nor can be a closing stays whole. -/
theorem stripMarks_append (hu : u.head?.any isBlank = false)
    (hl : u.getLast?.any isClosing = false) (hn : u ≠ []) :
    stripMarks (u ++ s) = u ++ dropEndWhile isClosing s := by
  obtain ⟨a, u, rfl⟩ := List.exists_cons_of_ne_nil hn
  obtain ⟨b, hb⟩ := Option.ne_none_iff_exists'.mp (mt List.getLast?_eq_none_iff.mp hn)
  rw [hb] at hl
  have hd : dropEndWhile isClosing (a :: u) = a :: u := dropEndWhile_eq_self hb hl
  rw [stripMarks_eq, List.cons_append, trimStart_cons hu, ← List.cons_append, dropEndWhile_append]
  split
  · rename_i hs
    rw [hd, hs, List.append_nil]
  · rfl

theorem trimmed_dropEndWhile (hc : isBlank c = false) :
    Trimmed (dropEndWhile isClosing (c :: t)) := by
  constructor
  · intro a ha
    obtain rfl := Option.some.inj (head?_of_head?_dropEndWhile ha)
    exact hc
  · intro a ha
    have hcl := of_getLast?_dropEndWhile ha
    simp only [isClosing, Bool.or_eq_false_iff] at hcl
    exact hcl.1

/-- White space goes in front before or after what closes the text. -/
theorem trimStart_dropEndWhile (t : Text) :
    trimStart (dropEndWhile isClosing t) = stripMarks t := by
  rw [stripMarks_eq]
  induction t with
  | nil => rfl
  | cons c t ih =>
    cases hc : isBlank c with
    | true =>
      have hd := dropEndWhile_append isClosing [c] t
      have hs : dropEndWhile isClosing [c] = [] := by simp [dropEndWhile, isClosing, hc]
      rw [List.singleton_append, hs] at hd
      rw [hd, trimStart_cons_of_blank hc, ← ih]
      split
      · rename_i ht
        rw [ht]
      · rw [List.singleton_append, trimStart_cons_of_blank hc]
    | false => rw [trimStart_cons hc, (trimmed_dropEndWhile hc).trimStart_eq]

theorem trimmed_stripMarks (t : Text) : Trimmed (stripMarks t) := by
  rw [stripMarks_eq]
  cases ht : trimStart t with
  | nil => exact ⟨fun c hc => (nomatch hc), fun c hc => (nomatch hc)⟩
  | cons c s => exact trimmed_dropEndWhile (of_head?_dropWhile (congrArg List.head? ht))

theorem trim_dropEndWhile (t : Text) : trim (dropEndWhile isClosing t) = stripMarks t := by
  have hi : trim (dropEndWhile isClosing t) = trim (trimStart (dropEndWhile isClosing t)) :=
    congrArg trimEnd (List.dropWhile_idempotent isBlank _).symm
  rw [hi, trimStart_dropEndWhile, (trimmed_stripMarks t).trim_eq]

/-- A trimmed text without a mark behind it has nothing to lose. -/
theorem stripMarks_eq_self (h : Trimmed t) (hm : ∀ c, t.getLast? = some c → isMark c = false) :
    stripMarks t = t := by
  cases t with
  | nil => simp [stripMarks_eq, trimStart, dropEndWhile]
  | cons a t =>
    rw [stripMarks_eq, trimStart_cons (h.1 a rfl)]
    have hl := List.getLast?_eq_some_getLast (List.cons_ne_nil a t)
    exact dropEndWhile_eq_self hl (by simp [isClosing, h.2 _ hl, hm _ hl])

theorem stripMarks_of_blank (h : blank t = true) : stripMarks t = [] := by
  have hs : trimStart t = [] := by simpa [trimStart, blank] using h
  rw [stripMarks_eq, hs]
  rfl

/-- White space in front and what may close a sentence behind do not matter. -/
theorem stripMarks_padded (hu : blank u = true) (hv : v.all isClosing = true) (t : Text) :
    stripMarks (u ++ t ++ v) = stripMarks t := by
  rw [← trimStart_dropEndWhile, ← trimStart_dropEndWhile, dropEndWhile_append_of_all hv,
    dropEndWhile_append]
  split
  · rename_i ht
    have hc : u.all isClosing = true := by
      rw [List.all_eq_true]
      intro c hc
      rw [isClosing, List.all_eq_true.mp hu c hc, Bool.true_or]
    rw [ht, dropEndWhile_of_all hc]
  · exact trimStart_append hu _

theorem stripMarks_stripMarks (t : Text) : stripMarks (stripMarks t) = stripMarks t :=
  stripMarks_eq_self (trimmed_stripMarks t) fun _ hc => (of_getLast?_stripMarks hc).2

/-! White space at the ends -/

theorem trim_append_left (hu : blank u = true) (t : Text) : trim (u ++ t) = trim t := by
  rw [trim, trimStart_append hu, trim]

theorem trim_of_blank (hv : blank v = true) : trim v = [] := by
  have h := trim_append_left hv []
  rwa [List.append_nil] at h

theorem trim_append_right (hv : blank v = true) (t : Text) : trim (t ++ v) = trim t := by
  rw [trim, trimStart, List.dropWhile_append]
  split
  · rename_i h
    rw [← trimStart, ← trim, trim_of_blank hv, trim, trimStart, List.isEmpty_iff.mp h]
    rfl
  · exact dropEndWhile_append_of_all hv _

/-- White space is all that trimming takes. -/
theorem exists_trim (t : Text) : ∃ u v, t = u ++ trim t ++ v ∧ blank u = true ∧ blank v = true := by
  obtain ⟨v, hv, hblank, -⟩ := exists_dropEndWhile isBlank (trimStart t)
  refine ⟨t.takeWhile isBlank, v, ?_, List.all_takeWhile, hblank⟩
  rw [List.append_assoc, trim, trimEnd, ← hv, trimStart, List.takeWhile_append_dropWhile]

/-- An ending of a text is trimmed to an ending of the trimmed text. -/
theorem suffix_trim (h : s <:+ t) : trim s <:+ trim t := by
  have hstart : trimStart s <:+ trimStart t := by
    obtain ⟨w, rfl⟩ := h
    rw [trimStart, trimStart, List.dropWhile_append]
    split
    · exact List.suffix_rfl
    · exact (List.dropWhile_suffix isBlank).trans (List.suffix_append _ s)
  obtain ⟨w, hw⟩ := hstart
  rw [trim, trim, ← hw, trimEnd, trimEnd, dropEndWhile_append]
  split
  · rename_i hn
    rw [hn]
    exact List.nil_suffix
  · exact List.suffix_append w _

theorem infix_trim (t : Text) : trim t <:+: t :=
  (prefix_dropEndWhile isBlank _).isInfix.trans (List.dropWhile_suffix isBlank).isInfix

end Syllogism.Text
