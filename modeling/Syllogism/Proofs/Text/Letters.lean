import Syllogism.Lexicon.Italian
import Syllogism.Proofs.Text.CaseMap
import Syllogism.Proofs.Text.Prefix
import Syllogism.Proofs.Text.Search

/-! A search compares letters by their forms, an opening by what they fold to. The characters that
either takes for a given letter are few, so that the two can be compared over all characters. For
each letter of the Italian copulas they agree. -/

namespace Syllogism

namespace Text

variable {p t u token : Text} {a c d : CodePoint} {r : Run} {runs : List Run} {n m i : Nat}

/-! Sources -/

/-- All letters that the runs may take to `m`. -/
def sources (runs : List Run) (m : Nat) : List Nat :=
  (runs.filter fun r => decide (r.images.Has m)).map fun r => r.first + (m - r.image)

theorem mem_sources (hr : r ∈ runs) (hn : r.Has n) :
    n ∈ sources runs (r.image + (n - r.first)) := by
  refine List.mem_map.mpr ⟨r, List.mem_filter_of_mem hr (decide_eq_true hn.images), ?_⟩
  have hfirst := hn.1
  omega

theorem mem_sources_of_imageIn? (h : imageIn? runs n = some m) : n ∈ sources runs m := by
  obtain ⟨r, hr, hn, rfl⟩ := exists_run_of_imageIn? h
  exact mem_sources hr hn

/-- All characters that may be forms of the letter `m`. -/
def letterSources (m : Nat) : List Nat :=
  (m :: (lowerVariants.filter fun v => v.2 == m).map Prod.fst).flatMap fun l =>
    l :: sources lowerRuns l

theorem code_mem_letterSources (c : CodePoint) : c.code ∈ letterSources (letter c) := by
  refine List.mem_flatMap.mpr ⟨(imageIn? lowerRuns c.code).getD c.code, ?_, ?_⟩
  · simp only [letter]
    generalize (imageIn? lowerRuns c.code).getD c.code = l
    cases hl : lowerVariants.lookup l with
    | none => exact List.mem_cons_self
    | some m =>
      obtain ⟨before, after, hv, -⟩ := List.lookup_eq_some_iff.mp hl
      have hm : (l, m) ∈ lowerVariants := by simp [hv]
      refine List.mem_cons_of_mem _ (List.mem_map.mpr ⟨(l, m), ?_, rfl⟩)
      exact List.mem_filter_of_mem hm (beq_self_eq_true m)
  · cases hi : imageIn? lowerRuns c.code with
    | none => exact List.mem_cons_self
    | some m => exact List.mem_cons_of_mem m (mem_sources_of_imageIn? hi)

theorem one_lt_length_foldSpellings : ∀ s ∈ foldCase.spellings, 1 < s.2.length := by
  decide +kernel

/-- What folds to one character is that itself, or stands in a run. -/
theorem code_mem_foldSources (h : foldCase.apply c = [d]) :
    c.code ∈ d.code :: sources foldRuns d.code := by
  obtain ⟨r, hr, hn, ha⟩ | ⟨spelling, hs, ha⟩ | ha := foldCase.apply_cases c
  · rw [ha, List.singleton_inj] at h
    rw [← h, inRange_foldCase.code_ofCode (CaseMap.images_mem_images hr) hn.images]
    exact List.mem_cons_of_mem _ (mem_sources hr hn)
  · rw [ha] at h
    have hlength := congrArg List.length h
    rw [List.length_map] at hlength
    exact absurd hlength (Nat.ne_of_gt (one_lt_length_foldSpellings _ hs))
  · rw [ha, List.singleton_inj] at h
    rw [h]
    exact List.mem_cons_self

/-! Letters on which both comparisons agree -/

/-- What a search takes for `a` has its folded form, and the other way round. -/
def Agreed (a : CodePoint) : Prop :=
  ∀ c, sameLetter a c = true ↔ foldCase.apply c = foldCase.apply a

/-- All characters that a search or a folded form may take for `a`. -/
def candidates (a : CodePoint) : List CodePoint :=
  (letterSources (letter a) ++ (foldCase.apply a).flatMap fun d =>
    d.code :: sources foldRuns d.code).map .ofCode

/-- If a letter folds to one, then a look at the candidates is enough. -/
theorem agreed_of_candidates (ha : (foldCase.apply a).length = 1)
    (h : ∀ c ∈ candidates a, sameLetter a c = true ↔ foldCase.apply c = foldCase.apply a) :
    Agreed a := by
  have hmem : ∀ c : CodePoint, c.code ∈ letterSources (letter a) ++ (foldCase.apply a).flatMap
      (fun d => d.code :: sources foldRuns d.code) → c ∈ candidates a := by
    intro c hc
    rw [← CodePoint.ofCode_code c]
    exact List.mem_map_of_mem hc
  obtain ⟨d, hd⟩ := List.length_eq_one_iff.mp ha
  intro c
  constructor
  · intro hl
    refine (h c (hmem c (List.mem_append_left _ ?_))).mp hl
    rw [beq_iff_eq.mp hl]
    exact code_mem_letterSources c
  · intro hf
    refine (h c (hmem c (List.mem_append_right _ ?_))).mpr hf
    rw [hd, List.flatMap_singleton]
    exact code_mem_foldSources (hf.trans hd)

theorem agreed_italian : ∀ p ∈ Lexicon.italian.copulas,
    p ≠ [] ∧ FoldsSingly p ∧ ∀ a ∈ p, Agreed a := by
  have hshape : ∀ p ∈ Lexicon.italian.copulas, p ≠ [] ∧ FoldsSingly p := by decide +kernel
  have hcand : ∀ p ∈ Lexicon.italian.copulas, ∀ a ∈ p, ∀ c ∈ candidates a,
      sameLetter a c = true ↔ foldCase.apply c = foldCase.apply a := by decide +kernel
  intro p hp
  obtain ⟨hn, hs⟩ := hshape p hp
  exact ⟨hn, hs, fun a ha => agreed_of_candidates (hs a ha) (hcand p hp a ha)⟩

/-! Texts -/

theorem foldCase_apply_ne_nil (c : CodePoint) : foldCase.apply c ≠ [] :=
  CaseMap.apply_ne_nil fun s hs =>
    List.ne_nil_of_length_pos (Nat.zero_lt_of_lt (one_lt_length_foldSpellings s hs))

theorem length_le_length_fold (t : Text) : t.length ≤ (fold t).length := by
  induction t with
  | nil => exact Nat.le_refl 0
  | cons c t ih =>
    have hc := List.length_pos_iff.mpr (foldCase_apply_ne_nil c)
    rw [fold, CaseMap.map_cons, List.length_append, ← fold, List.length_cons]
    omega

/-- Where letters fold to one, a letter that folds to a sequence makes the text too long. -/
theorem FoldsSingly.fold_cons_eq_iff (hp : FoldsSingly (a :: p)) (hu : u.length = p.length) :
    fold (c :: u) = fold (a :: p) ↔ foldCase.apply c = foldCase.apply a ∧ fold u = fold p := by
  obtain ⟨ha, hp⟩ := List.forall_mem_cons.mp hp
  rw [fold, fold, CaseMap.map_cons, CaseMap.map_cons, ← fold, ← fold]
  refine ⟨fun h => List.append_inj h ?_, fun h => by rw [h.1, h.2]⟩
  have hlength := congrArg List.length h
  rw [List.length_append, List.length_append, ha, FoldsSingly.length_fold hp] at hlength
  have hc := List.length_pos_iff.mpr (foldCase_apply_ne_nil c)
  have hle := length_le_length_fold u
  omega

/-- A search finds a token where it is an opening, if its letters fold to one and both comparisons
agree on them. -/
theorem spells_iff_fold (hs : FoldsSingly token) (ha : ∀ a ∈ token, Agreed a) :
    spells token t = true ↔
      token.length ≤ t.length ∧ fold (t.take token.length) = fold token := by
  fun_induction spells token t with
  | case1 => simp
  | case2 => simp
  | case3 a token c t ih =>
    obtain ⟨hagreed, ha⟩ := List.forall_mem_cons.mp ha
    have ih := ih (List.forall_mem_cons.mp hs).2 ha
    rw [Bool.and_eq_true, ih, hagreed c, List.length_cons, List.length_cons, List.take_succ_cons,
      Nat.succ_le_succ_iff, and_left_comm]
    refine and_congr_right fun hle => ?_
    exact (hs.fold_cons_eq_iff (List.length_take_of_le hle)).symm

theorem spells_eq_opensWith (hn : token ≠ []) (hs : FoldsSingly token)
    (ha : ∀ a ∈ token, Agreed a) (t : Text) : spells token t = opensWith t token := by
  rw [Bool.eq_iff_iff, spells_iff_fold hs ha, opensWith_eq_true_iff]
  exact (and_iff_right hn).symm

/-- A search for one token answers with the first place where it stands. -/
theorem find?_singleton_iff (hn : token ≠ []) : (∃ u, find? [token] n t = some (i, u)) ↔
    n ≤ i ∧ spells token (t.drop i) = true ∧
      ∀ j, n ≤ j → j < i → spells token (t.drop j) = false := by
  have hfind : find? [token] n t =
      (indexFrom? token n (t.drop n)).map fun i => (i, (t.drop i).take token.length) := by
    simp [find?, hn]
  rw [← indexFrom?_drop_eq_some_iff, hfind]
  simp

end Text

namespace Lexicon

open Text

/-- At each place of a text, a search takes what stands there for an Italian copula exactly if the
rest of the text opens with it. So the place that it finds is the first where the text goes on with
the copula. -/
theorem copulas_matched_alike {p : Text} (hp : p ∈ italian.copulas) (t : Text) :
    (∀ i, spells p (t.drop i) = opensWith (t.drop i) p) ∧
    ∀ n i, (∃ u, find? [p] n t = some (i, u)) ↔ n ≤ i ∧ opensWith (t.drop i) p = true ∧
      ∀ j, n ≤ j → j < i → opensWith (t.drop j) p = false := by
  obtain ⟨hn, hs, ha⟩ := agreed_italian p hp
  have heq : ∀ i, spells p (t.drop i) = opensWith (t.drop i) p :=
    fun i => spells_eq_opensWith hn hs ha (t.drop i)
  refine ⟨heq, fun n i => ?_⟩
  simp only [find?_singleton_iff hn, heq]

/-- Both take the long ſ for an S. -/
theorem copulas_matched_alike_felini :
    Text.of "SONO" ∈ italian.copulas ∧
    opensWith ((Text.of "Gatti ſono felini").drop 6) "SONO" = true ∧
    spells "SONO" ((Text.of "Gatti ſono felini").drop 6) = true ∧
    ∃ u, find? ["SONO"] 1 "Gatti ſono felini" = some (6, u) := by
  have hp : Text.of "SONO" ∈ italian.copulas := by decide
  have ho : opensWith ((Text.of "Gatti ſono felini").drop 6) "SONO" = true := by decide +kernel
  have hbefore : ∀ j, j < 6 → opensWith ((Text.of "Gatti ſono felini").drop j) "SONO" = false := by
    decide +kernel
  obtain ⟨hspells, hfind⟩ := copulas_matched_alike hp "Gatti ſono felini"
  refine ⟨hp, ho, (hspells 6).trans ho, ?_⟩
  exact (hfind 1 6).mpr ⟨by decide, ho, fun j _ hj => hbefore j hj⟩

/-- They part where a letter of the token is not one of those: a search takes İ for an I, but it folds
to two. -/
example : spells "I" "İ" = true ∧ opensWith "İ" "I" = false := by decide +kernel

end Lexicon

end Syllogism
