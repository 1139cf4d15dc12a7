import Syllogism.Text.CaseMap

/-! Case maps, read run by run: what all letters of a run become is said by what the first one becomes,
so that a check of the runs is a check of the letters. -/

namespace Syllogism

theorem CodePoint.code_ofCode {n : Nat} (h : n < 0x110000) : (ofCode n).code = n := by
  unfold ofCode
  split
  · simp only [code]
    omega
  · have hn : n.isValidChar := by
      simp only [Nat.isValidChar]
      omega
    show (Char.ofNat n).toNat = n
    rw [Char.ofNat, dif_pos hn]
    rfl

namespace Text

variable {n m : Nat} {t : Text} {a c : CodePoint}

/-! Runs -/

namespace Run

variable {r s : Run} {runs : List Run}

/-- The letters of a run. -/
def Has (r : Run) (n : Nat) : Prop := r.first ≤ n ∧ n ≤ r.last ∧ (n - r.first) % r.step = 0

instance (r : Run) (n : Nat) : Decidable (r.Has n) := inferInstanceAs (Decidable (_ ∧ _))

def single (n : Nat) : Run := ⟨n, n, 1, n⟩

def images (r : Run) : Run := ⟨r.image, r.image + (r.last - r.first), r.step, r.image⟩

theorem has_single (n : Nat) : (single n).Has n := ⟨Nat.le_refl n, Nat.le_refl n, Nat.mod_one _⟩

theorem Has.images (h : r.Has n) : r.images.Has (r.image + (n - r.first)) := by
  obtain ⟨hf, hl, hm⟩ := h
  refine ⟨Nat.le_add_right _ _, ?_, ?_⟩
  · simp only [Run.images]
    omega
  · rwa [Run.images, Nat.add_sub_cancel_left]

theorem has_of_image? (hn : r.first ≤ n) (h : r.image? n = some m) :
    r.Has n ∧ m = r.image + (n - r.first) := by
  unfold image? at h
  split at h
  · rename_i hr
    exact ⟨⟨hn, hr⟩, (Option.some.inj h).symm⟩
  · cases h

/-- The letters of `s` stand in front of those of `r`, or between them. -/
def precedes (s r : Run) : Bool :=
  Nat.blt s.last r.first || Nat.beq s.step 2 && (Nat.beq r.step 2 || Nat.beq r.first r.last) &&
    Nat.beq ((r.first + s.first) % 2) 1

/-- Runs in ascending order have no letter of `r`. -/
def misses (r : Run) : List Run → Bool
  | [] => true
  | s :: rest =>
    -- the runs behind one that starts after `r` start after it, too
    Nat.blt r.last s.first || s.precedes r && misses r rest

/-- `misses` as one recursor. The kernel is through with a long table several times sooner in this
form. -/
theorem misses_eq_rec (r : Run) (runs : List Run) :
    r.misses runs = List.rec true (fun s _ rest =>
      Bool.rec (Bool.rec (s.precedes r && rest) rest (Nat.blt s.last r.first)) true
        (Nat.blt r.last s.first)) runs := by
  induction runs with
  | nil => rfl
  | cons s runs ih =>
    show (Nat.blt r.last s.first || s.precedes r && r.misses runs) =
      Bool.rec (Bool.rec (s.precedes r && List.rec true _ runs) (List.rec true _ runs)
        (Nat.blt s.last r.first)) true (Nat.blt r.last s.first)
    rw [← ih]
    cases Nat.blt r.last s.first with
    | true => rfl
    | false =>
      cases h : Nat.blt s.last r.first with
      | true => rw [precedes, h]; rfl
      | false => rfl

theorem image?_eq_none (hr : r.Has n) (hs : s.first ≤ n) (h : s.precedes r = true) :
    s.image? n = none := by
  obtain ⟨hf, hl, hm⟩ := hr
  rw [image?, if_neg]
  simp only [precedes, Bool.or_eq_true, Bool.and_eq_true, Nat.blt_eq, Nat.beq_eq] at h
  rintro ⟨hn, hsm⟩
  rcases h with h | ⟨⟨hss, hrs | hrs⟩, hp⟩
  · omega
  · rw [hss] at hsm
    rw [hrs] at hm
    omega
  · rw [hss] at hsm
    omega

theorem imageIn?_eq_none (hr : r.Has n) (h : r.misses runs = true) : imageIn? runs n = none := by
  induction runs with
  | nil => rfl
  | cons s runs ih =>
    simp only [misses, Bool.or_eq_true, Bool.and_eq_true, Nat.blt_eq] at h
    rw [imageIn?]
    split
    · rfl
    · rename_i hn
      rcases h with h | ⟨hp, hm⟩
      · exact absurd (Nat.lt_of_le_of_lt hr.2.1 h) hn
      · rw [image?_eq_none hr (Nat.le_of_not_lt hn) hp, ih hm]
        rfl

theorem spellingIn?_eq_none {spellings : List (Nat × List Nat)} (hr : r.Has n)
    (h : r.misses (spellings.map fun s => single s.1) = true) : spellingIn? spellings n = none := by
  induction spellings with
  | nil => rfl
  | cons s spellings ih =>
    simp only [List.map_cons, misses, precedes, single, Bool.or_eq_true, Bool.and_eq_true,
      Nat.blt_eq, Nat.beq_eq] at h
    rw [spellingIn?]
    have hl := hr.1
    have hl := hr.2.1
    split
    · rfl
    · split
      · omega
      · refine ih ?_
        rcases h with h | ⟨-, h⟩
        · omega
        · exact h

/-- All letters of `r` are letters of `s`. -/
def covers (s r : Run) : Bool :=
  Nat.ble s.first r.first && Nat.ble r.last s.last && Nat.beq ((r.first - s.first) % s.step) 0 &&
    (Nat.beq (r.step % s.step) 0 || Nat.beq r.first r.last)

theorem image?_eq_some (hr : r.Has n) (h : s.covers r = true) :
    s.image? n = some (s.image + (r.first - s.first) + (n - r.first)) := by
  obtain ⟨hf, hl, hm⟩ := hr
  simp only [covers, Bool.or_eq_true, Bool.and_eq_true, Nat.ble_eq, Nat.beq_eq] at h
  obtain ⟨⟨⟨hsf, hsl⟩, hsm⟩, hstep⟩ := h
  have hsplit : n - s.first = (r.first - s.first) + (n - r.first) := by omega
  have hdvd : s.step ∣ n - r.first := by
    rcases hstep with hstep | hone
    · exact Nat.dvd_trans (Nat.dvd_of_mod_eq_zero hstep) (Nat.dvd_of_mod_eq_zero hm)
    · have hzero : n - r.first = 0 := by omega
      rw [hzero]
      exact Nat.dvd_zero _
  have hmod : (n - s.first) % s.step = 0 := by
    rw [hsplit]
    exact Nat.mod_eq_zero_of_dvd (Nat.dvd_add (Nat.dvd_of_mod_eq_zero hsm) hdvd)
  rw [image?, if_pos ⟨Nat.le_trans hl hsl, hmod⟩, hsplit, Nat.add_assoc]

/-- The image of the first letter of `r`, where one run has them all. -/
def startIn? (r : Run) : List Run → Option Nat
  | [] => none
  | s :: rest =>
    if Nat.ble s.first r.first && s.precedes r then startIn? r rest
    else if s.covers r then some (s.image + (r.first - s.first))
    else none

theorem imageIn?_eq_some (hr : r.Has n) (h : r.startIn? runs = some m) :
    imageIn? runs n = some (m + (n - r.first)) := by
  induction runs with
  | nil => cases h
  | cons s runs ih =>
    rw [startIn?] at h
    split at h
    · rename_i hp
      rw [Bool.and_eq_true, Nat.ble_eq] at hp
      have hs : s.first ≤ n := Nat.le_trans hp.1 hr.1
      rw [imageIn?, if_neg (Nat.not_lt.mpr hs), image?_eq_none hr hs hp.2, Option.none_or, ih h]
    · split at h
      · rename_i hc
        obtain rfl := Option.some.inj h
        have hs : s.first ≤ r.first := by
          simp only [covers, Bool.and_eq_true, Nat.ble_eq] at hc
          exact hc.1.1.1
        rw [imageIn?, if_neg (Nat.not_lt.mpr (Nat.le_trans hs hr.1)), image?_eq_some hr hc,
          Option.some_or]
      · cases h

/-! The first letter of a run and the others -/

def head (r : Run) : Run := ⟨r.first, r.first, r.step, r.image⟩

def tail (r : Run) : Run := ⟨r.first + r.step, r.last, r.step, r.image + r.step⟩

theorem Has.head_or_tail (h : r.Has n) : r.head.Has n ∨ r.tail.Has n := by
  obtain ⟨hf, hl, hm⟩ := h
  rcases Nat.eq_or_lt_of_le hf with rfl | hlt
  · exact .inl ⟨Nat.le_refl _, Nat.le_refl _, hm⟩
  · have hstep : r.step ≤ n - r.first :=
      Nat.le_of_dvd (Nat.sub_pos_of_lt hlt) (Nat.dvd_of_mod_eq_zero hm)
    refine .inr ⟨?_, hl, ?_⟩
    · simp only [tail]
      omega
    · rw [tail, Nat.sub_add_eq, ← Nat.mod_eq_sub_mod hstep, hm]

end Run

theorem exists_run_of_imageIn? {runs : List Run} (h : imageIn? runs n = some m) :
    ∃ r ∈ runs, r.Has n ∧ m = r.image + (n - r.first) := by
  induction runs with
  | nil => cases h
  | cons r runs ih =>
    rw [imageIn?] at h
    split at h
    · cases h
    · rename_i hn
      rcases Option.or_eq_some_iff.mp h with h | ⟨-, h⟩
      · exact ⟨r, List.mem_cons_self, Run.has_of_image? (Nat.le_of_not_lt hn) h⟩
      · obtain ⟨r', hr, h⟩ := ih h
        exact ⟨r', List.mem_cons_of_mem r hr, h⟩

theorem mem_of_spellingIn? {spellings : List (Nat × List Nat)} {spelling : List Nat}
    (h : spellingIn? spellings n = some spelling) : (n, spelling) ∈ spellings := by
  induction spellings with
  | nil => cases h
  | cons s spellings ih =>
    rw [spellingIn?] at h
    split at h
    · cases h
    · split at h
      · rename_i hn
        obtain rfl := Option.some.inj h
        rw [hn]
        exact List.mem_cons_self
      · exact List.mem_cons_of_mem s (ih h)

/-! Case maps -/

namespace CaseMap

variable {map : CaseMap} {r : Run} {starts : List Nat}

/-- All that letters become, as runs. -/
def images (map : CaseMap) : List Run :=
  map.runs.map Run.images ++ map.spellings.flatMap fun s => s.2.map Run.single

theorem images_mem_images (h : r ∈ map.runs) : r.images ∈ map.images :=
  List.mem_append_left _ (List.mem_map_of_mem h)

theorem single_mem_images {spelling : List Nat} (h : (n, spelling) ∈ map.spellings)
    (hm : m ∈ spelling) : Run.single m ∈ map.images :=
  List.mem_append_right _ (List.mem_flatMap.mpr ⟨_, h, List.mem_map_of_mem hm⟩)

/-- All that becomes of a letter. Either it stands in a run, or it is spelled, or it stays. -/
theorem apply_cases (map : CaseMap) (c : CodePoint) :
    (∃ r ∈ map.runs, r.Has c.code ∧ map.apply c = [.ofCode (r.image + (c.code - r.first))]) ∨
    (∃ spelling, (c.code, spelling) ∈ map.spellings ∧ map.apply c = spelling.map .ofCode) ∨
    map.apply c = [c] := by
  unfold apply
  split
  · rename_i m hm
    obtain ⟨r, hr, hn, rfl⟩ := exists_run_of_imageIn? hm
    exact .inl ⟨r, hr, hn, rfl⟩
  · split
    · rename_i spelling hs
      exact .inr (.inl ⟨spelling, mem_of_spellingIn? hs, rfl⟩)
    · exact .inr (.inr rfl)

theorem apply_ne_nil (h : ∀ s ∈ map.spellings, s.2 ≠ []) : map.apply a ≠ [] := by
  obtain ⟨r, -, -, ha⟩ | ⟨spelling, hs, ha⟩ | ha := map.apply_cases a
  · rw [ha]
    exact List.cons_ne_nil _ _
  · rw [ha]
    exact fun hn => h _ hs (List.map_eq_nil_iff.mp hn)
  · rw [ha]
    exact List.cons_ne_nil _ _

/-- What letters become has a code. -/
def InRange (map : CaseMap) : Prop := ∀ r ∈ map.images, r.last < 0x110000

instance (map : CaseMap) : Decidable map.InRange :=
  inferInstanceAs (Decidable (∀ r ∈ map.images, r.last < 0x110000))

theorem InRange.code_ofCode (h : map.InRange) (hr : r ∈ map.images) (hn : r.Has n) :
    (CodePoint.ofCode n).code = n :=
  CodePoint.code_ofCode (Nat.lt_of_le_of_lt hn.2.1 (h r hr))

/-- A letter that the map does not list is its own image. -/
theorem InRange.mem_apply (h : map.InRange) (hc : c ∈ map.apply a) :
    map.apply c = [c] ∧ c = a ∨ ∃ r ∈ map.images, r.Has c.code := by
  obtain ⟨r, hr, hn, ha⟩ | ⟨spelling, hs, ha⟩ | ha := map.apply_cases a
  · rw [ha, List.mem_singleton] at hc
    subst hc
    refine .inr ⟨r.images, images_mem_images hr, ?_⟩
    rw [h.code_ofCode (images_mem_images hr) hn.images]
    exact hn.images
  · rw [ha] at hc
    obtain ⟨k, hk, rfl⟩ := List.mem_map.mp hc
    refine .inr ⟨.single k, single_mem_images hs hk, ?_⟩
    rw [h.code_ofCode (single_mem_images hs hk) (Run.has_single k)]
    exact Run.has_single k
  · rw [ha, List.mem_singleton] at hc
    subst hc
    exact .inl ⟨ha, rfl⟩

/-- No letter of the run is listed. -/
def spares (map : CaseMap) (r : Run) : Bool :=
  r.misses map.runs && r.misses (map.spellings.map fun s => .single s.1)

theorem apply_eq_self (hr : r.Has c.code) (h : map.spares r = true) : map.apply c = [c] := by
  rw [spares, Bool.and_eq_true] at h
  rw [apply, Run.imageIn?_eq_none hr h.1, Run.spellingIn?_eq_none hr h.2]

/-- What letters become has a code, and becomes nothing else. -/
structure Final (map : CaseMap) : Prop where
  inRange : map.InRange
  spared : ∀ r ∈ map.images, map.spares r = true

theorem Final.apply_eq_self (hf : map.Final) (h : c ∈ map.apply a) : map.apply c = [c] := by
  rcases hf.inRange.mem_apply h with ⟨hc, -⟩ | ⟨r, hr, hn⟩
  · exact hc
  · exact CaseMap.apply_eq_self hn (hf.spared r hr)

theorem map_eq_self (h : ∀ c ∈ t, map.apply c = [c]) : map.map t = t := by
  induction t with
  | nil => rfl
  | cons c t ih =>
    rw [map_cons, h c List.mem_cons_self, ih fun c hc => h c (List.mem_cons_of_mem _ hc),
      List.singleton_append]

theorem Final.map_map (hf : map.Final) (t : Text) : map.map (map.map t) = map.map t := by
  apply map_eq_self
  intro c hc
  obtain ⟨a, -, ha⟩ := List.mem_flatMap.mp hc
  exact hf.apply_eq_self ha

/-- What the first letter of a run becomes, where the others become what lies at their distance from
it. -/
def starts? (map : CaseMap) (r : Run) : Option (List Nat) :=
  match r.startIn? map.runs with
  | some k => some [k]
  | none =>
    if r.misses map.runs then
      if r.misses (map.spellings.map fun s => .single s.1) then some [r.first]
      else if r.first = r.last then spellingIn? map.spellings r.first
      else none
    else none

theorem apply_eq_of_starts? (hr : r.Has c.code) (h : map.starts? r = some starts) :
    map.apply c = starts.map fun k => .ofCode (k + (c.code - r.first)) := by
  unfold starts? at h
  split at h
  · rename_i k hk
    obtain rfl := Option.some.inj h
    rw [apply, Run.imageIn?_eq_some hr hk]
    rfl
  · split at h
    · rename_i hm
      split at h
      · rename_i hs
        obtain rfl := Option.some.inj h
        have hspares : map.spares r = true := Bool.and_eq_true_iff.mpr ⟨hm, hs⟩
        rw [apply_eq_self hr hspares, List.map_singleton, Nat.add_sub_cancel' hr.1,
          CodePoint.ofCode_code]
      · split at h
        · rename_i hone
          have hcode : c.code = r.first := Nat.le_antisymm (hone ▸ hr.2.1) hr.1
          rw [apply, Run.imageIn?_eq_none hr hm, hcode, h, Nat.sub_self]
          rfl
        · cases h
    · cases h

end CaseMap

end Text

end Syllogism
