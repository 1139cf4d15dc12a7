import Mathlib.Data.List.Forall2
import Syllogism.Proofs.Lexicon.Key
import Syllogism.Proofs.Text.Marks
import Syllogism.Text.Search

/-! Texts that differ in nothing but case: what is cut off at their ends, how they open, where a
token stands in them and what their key is, is the same for both. -/

namespace Syllogism

open List (Forall₂)

/-- Two code points have the same capitals, fold to the same, and are forms of one letter to a
search. -/
structure CodePoint.SameCase (c d : CodePoint) : Prop where
  upper : Text.upperCase.apply c = Text.upperCase.apply d
  fold : Text.foldCase.apply c = Text.foldCase.apply d
  letter : Text.sameLetter c d = true

instance (c d : CodePoint) : Decidable (c.SameCase d) :=
  decidable_of_iff
    (Text.upperCase.apply c = Text.upperCase.apply d ∧
      Text.foldCase.apply c = Text.foldCase.apply d ∧ Text.sameLetter c d = true)
    ⟨fun h => ⟨h.1, h.2.1, h.2.2⟩, fun h => ⟨h.upper, h.fold, h.letter⟩⟩

namespace Text

/-- Two texts are equally long, and have the same code points up to case. -/
def SameCase (s t : Text) : Prop := Forall₂ CodePoint.SameCase s t

instance (s t : Text) : Decidable (SameCase s t) :=
  inferInstanceAs (Decidable (Forall₂ CodePoint.SameCase s t))

variable {c d : CodePoint} {s t u v : Text}

/-! White space and marks have no case -/

/-- White space, as runs. -/
def blankRuns : List Run :=
  [⟨0x09, 0x0D, 1, 0x09⟩, ⟨0x1C, 0x20, 1, 0x1C⟩, .single 0x85, .single 0xA0, .single 0x1680,
    ⟨0x2000, 0x200A, 1, 0x2000⟩, ⟨0x2028, 0x2029, 1, 0x2028⟩, .single 0x202F, .single 0x205F,
    .single 0x3000]

theorem exists_run_of_isBlank (h : isBlank c = true) : ∃ r ∈ blankRuns, r.Has c.code := by
  simp only [isBlank, Bool.or_eq_true, Bool.and_eq_true, decide_eq_true_eq, beq_iff_eq] at h
  simp only [blankRuns, List.exists_mem_cons_iff, Run.Has, Run.single, Nat.mod_one,
    List.not_mem_nil, false_and, exists_false, or_false, and_true]
  omega

theorem upperCase_apply_of_isBlank (h : isBlank c = true) : upperCase.apply c = [c] := by
  have hs : ∀ r ∈ blankRuns, upperCase.spares r = true := by decide +kernel
  obtain ⟨r, hr, hn⟩ := exists_run_of_isBlank h
  exact CaseMap.apply_eq_self hn (hs r hr)

theorem mem_upperCase_apply (h : upperCase.apply c = upperCase.apply d)
    (hc : upperCase.apply c = [c]) : c ∈ upperCase.apply d := by
  rw [← h, hc]
  exact List.mem_singleton_self c

theorem isBlank_of_upper (h : upperCase.apply c = upperCase.apply d) (hc : isBlank c = true) :
    isBlank d = true := by
  by_contra hd
  -- white space is its own capital, and no capital of what is not white space
  have hm := mem_upperCase_apply h (upperCase_apply_of_isBlank hc)
  have hn := not_blank_of_mem_apply hm (Bool.eq_false_iff.mpr hd)
  rw [hc] at hn
  cases hn

/-- A mark is the capital of no other character. -/
theorem isMark_of_upper (h : upperCase.apply c = upperCase.apply d) (hc : isMark c = true) :
    isMark d = true := by
  have hmark : upperCase.apply c = [c] ∧ c.code ≤ 0x3F := by
    simp only [isMark, Bool.or_eq_true, beq_iff_eq] at hc
    obtain rfl | rfl := hc <;> decide
  obtain rfl := eq_of_mem_apply_of_le (mem_upperCase_apply h hmark.1) hmark.2
  exact hc

theorem isBlank_congr (h : c.SameCase d) : isBlank c = isBlank d :=
  Bool.eq_iff_iff.mpr ⟨isBlank_of_upper h.upper, isBlank_of_upper h.upper.symm⟩

theorem isClosing_congr (h : c.SameCase d) : isClosing c = isClosing d := by
  have hm : isMark c = isMark d :=
    Bool.eq_iff_iff.mpr ⟨isMark_of_upper h.upper, isMark_of_upper h.upper.symm⟩
  rw [isClosing, isClosing, isBlank_congr h, hm]

/-! Parts of texts -/

theorem SameCase.refl (t : Text) : t.SameCase t :=
  List.forall₂_same.mpr fun _ _ => ⟨rfl, rfl, beq_self_eq_true _⟩

theorem SameCase.isEmpty_eq (h : s.SameCase t) : s.isEmpty = t.isEmpty := by
  cases h <;> rfl

theorem forall₂_dropWhile {p : CodePoint → Bool} (hp : ∀ c d, c.SameCase d → p c = p d)
    (h : s.SameCase t) : SameCase (s.dropWhile p) (t.dropWhile p) := by
  induction h with
  | nil => exact .nil
  | cons hc ht ih =>
    rw [List.dropWhile_cons, List.dropWhile_cons, hp _ _ hc]
    split
    · exact ih
    · exact .cons hc ht

theorem SameCase.dropEndWhile {p : CodePoint → Bool} (hp : ∀ c d, c.SameCase d → p c = p d)
    (h : s.SameCase t) : SameCase (Text.dropEndWhile p s) (Text.dropEndWhile p t) :=
  List.forall₂_reverse_iff.mpr (forall₂_dropWhile hp (List.forall₂_reverse_iff.mpr h))

theorem SameCase.trimStart (h : s.SameCase t) : SameCase (Text.trimStart s) (Text.trimStart t) :=
  forall₂_dropWhile (fun _ _ => isBlank_congr) h

theorem SameCase.trim (h : s.SameCase t) : SameCase (Text.trim s) (Text.trim t) :=
  h.trimStart.dropEndWhile fun _ _ => isBlank_congr

theorem SameCase.stripMarks (h : s.SameCase t) :
    SameCase (Text.stripMarks s) (Text.stripMarks t) := by
  rw [stripMarks_eq, stripMarks_eq]
  exact h.trimStart.dropEndWhile fun _ _ => isClosing_congr

theorem SameCase.blank_eq (h : s.SameCase t) : Text.blank s = Text.blank t := by
  induction h with
  | nil => rfl
  | cons hc _ ih => exact congrArg₂ and (isBlank_congr hc) ih

theorem SameCase.take (h : s.SameCase t) (n : Nat) : SameCase (s.take n) (t.take n) :=
  List.forall₂_take n h

theorem SameCase.drop (h : s.SameCase t) (n : Nat) : SameCase (s.drop n) (t.drop n) :=
  List.forall₂_drop n h

theorem SameCase.append (h : s.SameCase t) (h' : u.SameCase v) : SameCase (s ++ u) (t ++ v) :=
  List.rel_append h h'

/-- Answers of several lines differ in case only if their lines do. -/
theorem sameCase_joinLines {items items' : List Text} (h : Forall₂ SameCase items items') :
    SameCase (joinLines items) (joinLines items') := by
  induction h with
  | nil => exact .nil
  | cons hi hrest ih =>
    cases hrest with
    | nil => simpa only [joinLines, List.intercalate_singleton] using hi
    | cons _ _ =>
      simp only [joinLines, List.intercalate_cons_cons] at ih ⊢
      exact (hi.append (.refl _)).append ih

/-! Case maps and openings -/

theorem CaseMap.map_congr {m : CaseMap} (h : Forall₂ (fun c d => m.apply c = m.apply d) s t) :
    m.map s = m.map t := by
  induction h with
  | nil => rfl
  | cons hc _ ih => rw [map_cons, map_cons, hc, ih]

theorem SameCase.upper_eq (h : s.SameCase t) : Text.upper s = Text.upper t :=
  CaseMap.map_congr (h.imp fun _ _ h => h.upper)

theorem SameCase.fold_eq (h : s.SameCase t) : Text.fold s = Text.fold t :=
  CaseMap.map_congr (h.imp fun _ _ h => h.fold)

theorem SameCase.opensWith_eq (h : s.SameCase t) (p : Text) :
    Text.opensWith s p = Text.opensWith t p := by
  rw [Text.opensWith, Text.opensWith, h.length_eq, (h.take p.length).fold_eq]

theorem SameCase.opening?_eq (h : s.SameCase t) (openings : List Text) :
    Text.opening? openings s = Text.opening? openings t := by
  simp only [Text.opening?, h.opensWith_eq]

/-! Tokens -/

theorem sameLetter_congr (h : c.SameCase d) (p : CodePoint) : sameLetter p c = sameLetter p d := by
  have hl : letter c = letter d := beq_iff_eq.mp h.letter
  rw [sameLetter, sameLetter, hl]

theorem SameCase.spells_eq (h : s.SameCase t) (token : Text) :
    Text.spells token s = Text.spells token t := by
  induction token generalizing s t with
  | nil => cases h <;> rfl
  | cons p ps ih =>
    cases h with
    | nil => rfl
    | cons hc h => rw [Text.spells, Text.spells, sameLetter_congr hc, ih h]

theorem SameCase.indexFrom?_eq (h : s.SameCase t) (token : Text) (i : Nat) :
    Text.indexFrom? token i s = Text.indexFrom? token i t := by
  induction h generalizing i with
  | nil => rfl
  | cons hc h ih =>
    rw [Text.indexFrom?, Text.indexFrom?, SameCase.spells_eq (.cons hc h), ih]

/-! Articles and keys -/

theorem SameCase.hasArticle_eq (h : s.SameCase t) (article : Text) :
    Text.hasArticle s article = Text.hasArticle t article := by
  have hb : ∀ {u v : Text}, u.SameCase v → u.head?.any isBlank = v.head?.any isBlank := by
    intro u v huv
    cases huv with
    | nil => rfl
    | cons hc _ => exact isBlank_congr hc
  rw [Text.hasArticle, Text.hasArticle, h.opensWith_eq, standsAlone, standsAlone,
    hb (h.drop article.length)]

theorem SameCase.dropArticle (h : s.SameCase t) (articles : List Text) :
    SameCase (Text.dropArticle articles s) (Text.dropArticle articles t) := by
  simp only [Text.dropArticle, h.hasArticle_eq]
  split
  · exact h.trim
  · rename_i article _
    have hrest := (h.drop article.length).trim
    rw [hrest.isEmpty_eq]
    split
    · exact h.trim
    · exact hrest

end Text

theorem Lexicon.key_congr (l : Lexicon) {s t : Text} (h : s.SameCase t) : l.key s = l.key t := by
  rw [key, key, plainKey, plainKey, (h.dropArticle l.articles).trim.upper_eq]

end Syllogism
