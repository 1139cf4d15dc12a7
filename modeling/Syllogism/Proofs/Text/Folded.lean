import Syllogism.Proofs.Text.Prefix
import Syllogism.Proofs.Text.SameCase

/-! Capitals of folded texts. The capitals of a letter are those of its folded form, except for a few
letters that are capitals themselves, but not of what they fold to. -/

namespace Syllogism

namespace Text

variable {c : CodePoint} {s t : Text} {r : Run} {images : List Run} {starts : List (List Nat)}
  {d : Nat}

/-- İ, ϴ, ẞ, and the signs of ohm, kelvin and ångström. They fold to i̇, θ, ss, ω, k and å, whose
capitals are other letters. -/
def loneCapitals : List CodePoint :=
  [0x130, 0x3F4, 0x1E9E, 0x2126, 0x212A, 0x212B].map .ofCode

/-- None of these letters is in the text. -/
def Paired (t : Text) : Prop := ∀ c ∈ t, c ∉ loneCapitals

instance (t : Text) : Decidable (Paired t) :=
  inferInstanceAs (Decidable (∀ c ∈ t, c ∉ loneCapitals))

/-! Letters -/

/-- The first letter of the run has the capitals of its images, and so have the others. -/
def sameCapitals (r : Run) (images : List Run) : Bool :=
  match upperCase.starts? r with
  | some capitals =>
    images.all (fun q => Nat.blt q.last 0x110000) &&
      (images.mapM upperCase.starts?).map List.flatten == some capitals
  | none => false

theorem upper_map_ofCode (hi : ∀ q ∈ images, q.last < 0x110000 ∧ q.Has (q.first + d))
    (h : images.mapM upperCase.starts? = some starts) :
    upper (images.map fun q => .ofCode (q.first + d)) =
      starts.flatten.map fun k => .ofCode (k + d) := by
  induction images generalizing starts with
  | nil =>
    obtain rfl := Option.some.inj h
    rfl
  | cons q images ih =>
    obtain ⟨⟨hlast, hq⟩, hi⟩ := List.forall_mem_cons.mp hi
    rw [List.mapM_cons] at h
    obtain ⟨first, hfirst, h⟩ := Option.bind_eq_some_iff.mp h
    obtain ⟨rest, hrest, h⟩ := Option.bind_eq_some_iff.mp h
    obtain rfl := Option.some.inj h
    have hcode : (CodePoint.ofCode (q.first + d)).code = q.first + d :=
      CodePoint.code_ofCode (Nat.lt_of_le_of_lt hq.2.1 hlast)
    have happly := CaseMap.apply_eq_of_starts? (hcode.symm ▸ hq) hfirst
    rw [hcode, Nat.add_sub_cancel_left] at happly
    rw [List.map_cons, upper, CaseMap.map_cons, ← upper, ih hi hrest, happly, List.flatten_cons,
      List.map_append]

theorem upper_eq_of_sameCapitals (hr : r.Has c.code) (h : sameCapitals r images = true)
    (hi : ∀ q ∈ images, q.Has (q.first + (c.code - r.first))) :
    upper (images.map fun q => .ofCode (q.first + (c.code - r.first))) = upperCase.apply c := by
  unfold sameCapitals at h
  split at h
  · rename_i capitals hcapitals
    rw [Bool.and_eq_true, List.all_eq_true, beq_iff_eq, Option.map_eq_some_iff] at h
    obtain ⟨hlast, starts, hstarts, rfl⟩ := h
    rw [CaseMap.apply_eq_of_starts? hr hcapitals]
    exact upper_map_ofCode (fun q hq => ⟨Nat.blt_eq.mp (hlast q hq), hi q hq⟩) hstarts
  · cases h

theorem upper_image (hr : r.Has c.code) (h : sameCapitals r [r.images] = true) :
    upper [.ofCode (r.image + (c.code - r.first))] = upperCase.apply c := by
  refine upper_eq_of_sameCapitals hr h fun q hq => ?_
  rw [List.mem_singleton.mp hq]
  exact hr.images

theorem upper_spelling {spelling : List Nat}
    (h : sameCapitals (.single c.code) (spelling.map .single) = true) :
    upper (spelling.map .ofCode) = upperCase.apply c := by
  have hu := upper_eq_of_sameCapitals (Run.has_single c.code) h fun q hq => by
    obtain ⟨k, -, rfl⟩ := List.mem_map.mp hq
    simpa [Run.single] using Run.has_single k
  simpa [Run.single, Function.comp_def] using hu

/-- Except for those few, a letter has the capitals of its folded form. -/
theorem upper_foldCase_apply (hc : c ∉ loneCapitals) :
    upper (foldCase.apply c) = upperCase.apply c := by
  -- of some runs the first letter has capitals of its own, and the others are capitals
  have hruns : ∀ r ∈ foldRuns, .ofCode r.first ∈ loneCapitals ∧ r.last = r.first ∨
      sameCapitals r [r.images] = true ∨
      sameCapitals r.head [r.head.images] = true ∧ sameCapitals r.tail [r.tail.images] = true := by
    simp only [sameCapitals, CaseMap.starts?, Run.misses_eq_rec]
    decide +kernel
  have hspellings : ∀ s ∈ foldSpellings, .ofCode s.1 ∈ loneCapitals ∨
      sameCapitals (.single s.1) (s.2.map .single) = true := by
    simp only [sameCapitals, CaseMap.starts?, Run.misses_eq_rec]
    decide +kernel
  obtain ⟨r, hr, hn, ha⟩ | ⟨spelling, hs, ha⟩ | ha := foldCase.apply_cases c
  · rw [ha]
    obtain ⟨hl, hone⟩ | hcap | ⟨hhead, htail⟩ := hruns r hr
    · rw [← Nat.le_antisymm (hone ▸ hn.2.1) hn.1, CodePoint.ofCode_code] at hl
      exact absurd hl hc
    · exact upper_image hn hcap
    · rcases hn.head_or_tail with hn | ht
      · exact upper_image (r := r.head) hn hhead
      · have hshift : r.image + (c.code - r.first) = r.tail.image + (c.code - r.tail.first) := by
          have hfirst := ht.1
          simp only [Run.tail] at hfirst ⊢
          omega
        rw [hshift]
        exact upper_image ht htail
  · rw [ha]
    rcases hspellings _ hs with hl | hcap
    · rw [CodePoint.ofCode_code] at hl
      exact absurd hl hc
    · exact upper_spelling hcap
  · rw [ha, upper, CaseMap.map_cons, CaseMap.map_nil, List.append_nil]

/-! Texts -/

theorem upper_fold (h : Paired t) : upper (fold t) = upper t := by
  induction t with
  | nil => rfl
  | cons c t ih =>
    obtain ⟨hc, ht⟩ := List.forall_mem_cons.mp h
    rw [fold, CaseMap.map_cons, upper, CaseMap.map_append, ← upper, ← upper, ← fold, ih ht,
      upper_foldCase_apply hc]
    rfl

/-- One of these letters is its own capital, and the capital of no other. -/
theorem mem_upper_iff (hc : c ∈ loneCapitals) : c ∈ upper t ↔ c ∈ t := by
  have hself : ∀ c ∈ loneCapitals, upperCase.apply c = [c] := by decide +kernel
  have himages : ∀ r ∈ upperCase.images, ∀ c ∈ loneCapitals, ¬ r.Has c.code := by decide +kernel
  constructor
  · intro h
    obtain ⟨a, ha, hca⟩ := List.mem_flatMap.mp h
    rcases final_upperCase.inRange.mem_apply hca with ⟨-, rfl⟩ | ⟨r, hr, hn⟩
    · exact ha
    · exact absurd hn (himages r hr c hc)
  · intro h
    refine List.mem_flatMap.mpr ⟨c, h, ?_⟩
    rw [hself c hc]
    exact List.mem_singleton_self c

theorem paired_fold (t : Text) : Paired (fold t) := by
  have hmoves : ∀ c ∈ loneCapitals, foldCase.apply c ≠ [c] := by decide +kernel
  have himages : ∀ r ∈ foldCase.images, ∀ c ∈ loneCapitals, ¬ r.Has c.code := by decide +kernel
  intro c h hc
  obtain ⟨a, -, hca⟩ := List.mem_flatMap.mp h
  rcases inRange_foldCase.mem_apply hca with ⟨hs, -⟩ | ⟨r, hr, hn⟩
  · exact hmoves c hc hs
  · exact himages r hr c hc hn

theorem mem_trim (h : c ∈ t) (hc : isBlank c = false) : c ∈ trim t := by
  have hblank : ∀ {u : Text}, blank u = true → c ∉ u := by
    intro u hu hm
    rw [List.all_eq_true.mp hu c hm] at hc
    cases hc
  obtain ⟨u, v, ht, hu, hv⟩ := exists_trim t
  rw [ht, List.mem_append, List.mem_append] at h
  exact (h.resolve_right (hblank hv)).resolve_left (hblank hu)

theorem upper_of_blank (h : blank t = true) : upper t = t :=
  upper_eq_self fun c hc => upperCase_apply_of_isBlank (List.all_eq_true.mp h c hc)

end Text

/-! Keys -/

open Text

variable {s t : Text}

theorem plainKey_eq (t : Text) : plainKey t = trim (upper t) := by
  obtain ⟨u, v, ht, hu, hv⟩ := exists_trim t
  have hupper : upper t = u ++ plainKey t ++ v := by
    conv_lhs => rw [ht]
    rw [upper, CaseMap.map_append, CaseMap.map_append, ← upper, ← upper, ← upper,
      upper_of_blank hu, upper_of_blank hv, ← plainKey]
  have htrimmed : Trimmed (plainKey t) := (trimmed_trim t).upper
  rw [hupper, trim_append_right hv, trim_append_left hu, htrimmed.trim_eq]

/-- One of these letters stays in the key. -/
theorem mem_plainKey_iff {c : CodePoint} (hc : c ∈ loneCapitals) : c ∈ plainKey t ↔ c ∈ t := by
  have hblank : ∀ c ∈ loneCapitals, isBlank c = false := by decide +kernel
  rw [plainKey_eq, ← mem_upper_iff (t := t) hc]
  exact ⟨fun h => (infix_trim _).subset h, fun h => mem_trim h (hblank c hc)⟩

theorem paired_congr (h : plainKey s = plainKey t) : Paired s ↔ Paired t := by
  have hmem : ∀ c ∈ loneCapitals, c ∈ s ↔ c ∈ t := by
    intro c hc
    rw [← mem_plainKey_iff hc, h, mem_plainKey_iff hc]
  exact ⟨fun hp c hct hc => hp c ((hmem c hc).mpr hct) hc,
    fun hp c hcs hc => hp c ((hmem c hc).mp hcs) hc⟩

/-- The folded form of a phrase has its key if and only if the phrase has none of those letters. -/
theorem plainKey_fold_iff : plainKey (fold t) = plainKey t ↔ Paired t := by
  constructor
  · intro h
    exact (paired_congr h).mp (paired_fold t)
  · intro h
    rw [plainKey_eq, upper_fold h, ← plainKey_eq]

theorem plainKey_eq_of_fold_eq (hs : Paired s) (ht : Paired t) (h : fold s = fold t) :
    plainKey s = plainKey t := by
  rw [← plainKey_fold_iff.mpr hs, h, plainKey_fold_iff.mpr ht]

end Syllogism
