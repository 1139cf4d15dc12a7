import Syllogism.Proofs.Json.Reads
import Mathlib.Tactic.Tauto

/-! Numbers and words: the reader finds the ones that are spelled, and those only. -/

namespace Syllogism.Json

variable {t rest digits : Text}

theorem Ends.noFigure (h : Ends t) : ∀ c ∈ t.head?, isFigure c = false := fun c hc => (h c hc).1

theorem takeWhile_isFigure (hd : ∀ c ∈ digits, isFigure c = true)
    (hr : ∀ c ∈ rest.head?, isFigure c = false) :
    (digits ++ rest).takeWhile isFigure = digits := by
  rw [List.takeWhile_append_of_pos hd]
  cases rest with
  | nil => simp
  | cons c rest => simp [hr c rfl]

theorem dropWhile_isFigure (hd : ∀ c ∈ digits, isFigure c = true)
    (hr : ∀ c ∈ rest.head?, isFigure c = false) :
    (digits ++ rest).dropWhile isFigure = rest := by
  rw [List.dropWhile_append_of_pos hd]
  cases rest with
  | nil => rfl
  | cons c rest => simp [hr c rfl]

theorem IsFigures.exists_cons (h : IsFigures digits) :
    ∃ d ds, digits = d :: ds ∧ isFigure d = true := by
  obtain ⟨d, ds, rfl⟩ := List.exists_cons_of_ne_nil h.1
  exact ⟨d, ds, rfl, h.2 d List.mem_cons_self⟩

theorem isFigures_takeWhile (h : (t.takeWhile isFigure).isEmpty = false) :
    IsFigures (t.takeWhile isFigure) := by
  constructor
  · intro hnil
    rw [hnil] at h
    cases h
  · intro c hc
    exact List.all_eq_true.mp List.all_takeWhile c hc

/-! Each part of a number that is spelled is found. -/

theorem exponentOf_ends (h : Ends t) : exponentOf t = (none, t) := by
  cases t with
  | nil => rfl
  | cons c t =>
    obtain ⟨-, -, he, hE⟩ := h c rfl
    rw [exponentOf.eq_def]
    simp only [if_neg (show ¬ (c = 'e' ∨ c = 'E') by tauto)]

theorem exponentOf_append_some {x : Bool × Text} {e : Text} (he : Exponent (some x) e)
    (hr : ∀ c ∈ rest.head?, isFigure c = false) : exponentOf (e ++ rest) = (some x, rest) := by
  cases he with
  | plain he hd =>
    have htake := takeWhile_isFigure hd.2 hr
    have hdrop := dropWhile_isFigure hd.2 hr
    obtain ⟨d, ds, rfl, hdf⟩ := hd.exists_cons
    rw [List.cons_append, exponentOf.eq_def]
    simp only [if_pos he]
    split
    · rename_i h
      obtain ⟨rfl, -⟩ := List.cons.inj h
      exact absurd hdf (by decide)
    · rename_i h
      obtain ⟨rfl, -⟩ := List.cons.inj h
      exact absurd hdf (by decide)
    · dsimp only
      rw [htake, hdrop]
      rfl
  | plus he hd | minus he hd =>
    rw [List.cons_append, List.cons_append, exponentOf.eq_def]
    simp only [if_pos he, takeWhile_isFigure hd.2 hr, dropWhile_isFigure hd.2 hr]
    rw [if_neg (by simp [hd.1])]

theorem exponentOf_append {exponent : Option (Bool × Text)} {e : Text} (he : Exponent exponent e)
    (hr : Ends rest) : exponentOf (e ++ rest) = (exponent, rest) := by
  cases exponent with
  | none =>
    cases he
    exact exponentOf_ends hr
  | some x => exact exponentOf_append_some he hr.noFigure

/-- What an exponent may follow. -/
theorem exponent_head {exponent : Option (Bool × Text)} {e : Text} (he : Exponent exponent e)
    (hr : Ends rest) : ∀ c ∈ (e ++ rest).head?, isFigure c = false ∧ c ≠ '.' := by
  have hmark : ∀ {c : CodePoint}, c = 'e' ∨ c = 'E' → isFigure c = false ∧ c ≠ '.' := by
    rintro c (rfl | rfl) <;> decide
  intro c hc
  cases he with
  | none => exact ⟨(hr c hc).1, (hr c hc).2.1⟩
  | plain he hd | plus he hd | minus he hd => 
    obtain rfl := Option.some.inj hc
    exact hmark he

theorem fractionOf_append {fraction f : Text} (hf : Fraction fraction f)
    (hr : ∀ c ∈ rest.head?, isFigure c = false ∧ c ≠ '.') :
    fractionOf (f ++ rest) = (fraction, rest) := by
  cases hf with
  | none =>
    rw [List.nil_append, fractionOf]
    rintro more rfl
    exact absurd rfl (hr _ rfl).2
  | some hd =>
    have hr : ∀ c ∈ rest.head?, isFigure c = false := fun c hc => (hr c hc).1
    rw [List.cons_append, fractionOf]
    simp only [takeWhile_isFigure hd.2 hr, dropWhile_isFigure hd.2 hr]
    rw [if_neg (by simp [hd.1])]

theorem fraction_head {fraction f : Text} (hf : Fraction fraction f)
    (hr : ∀ c ∈ rest.head?, isFigure c = false) :
    ∀ c ∈ (f ++ rest).head?, isFigure c = false := by
  cases hf with
  | none => exact hr
  | some hd =>
    intro c hc
    obtain rfl := Option.some.inj hc
    decide

theorem wholeOf_append {whole : Text} (hw : IsWhole whole)
    (hr : ∀ c ∈ rest.head?, isFigure c = false) : wholeOf (whole ++ rest) = whole := by
  obtain rfl | ⟨hd, hz⟩ := hw
  · rfl
  · have htake := takeWhile_isFigure hd.2 hr
    obtain ⟨d, ds, rfl, -⟩ := hd.exists_cons
    rw [wholeOf]
    · exact htake
    · intro more h
      obtain ⟨rfl, -⟩ := List.cons.inj h
      exact hz rfl

theorem IsWhole.exists_cons {whole : Text} (hw : IsWhole whole) :
    ∃ d ds, whole = d :: ds ∧ isFigure d = true := by
  obtain rfl | ⟨hd, -⟩ := hw
  · exact ⟨_, _, rfl, rfl⟩
  · exact hd.exists_cons

theorem signOf_append {n : Numeral} {c : CodePoint} (hc : isFigure c = true) :
    signOf (n.sign ++ c :: t) = (n.negative, c :: t) := by
  rw [Numeral.sign]
  cases n.negative with
  | true => rfl
  | false =>
    rw [if_neg (by decide), List.nil_append, signOf]
    intro more h
    obtain ⟨rfl, -⟩ := List.cons.inj h
    exact absurd hc (by decide)

theorem numeral?_of_spelled {n : Numeral} (h : n.Spelled t) (hr : Ends rest) :
    numeral? (t ++ rest) = some (n, rest) := by
  cases h with
  | @mk f e hw hf he =>
    have hh := exponent_head he hr
    have hwhole := wholeOf_append hw (fraction_head hf fun c hc => (hh c hc).1)
    obtain ⟨d, ds, hds, hd⟩ := hw.exists_cons
    have hs := signOf_append (n := n) (t := ds ++ (f ++ (e ++ rest))) hd
    rw [← List.cons_append, ← hds] at hs
    rw [show n.sign ++ n.whole ++ f ++ e ++ rest = n.sign ++ (n.whole ++ (f ++ (e ++ rest))) by
      simp, numeral?, hs]
    simp only [hwhole, List.drop_left, fractionOf_append hf hh, exponentOf_append he hr]
    rw [if_neg (by simp [hds])]

/-! Each part that is found is spelled. -/

theorem sign_signOf (t : Text) :
    t = (if (signOf t).1 then [.char '-'] else []) ++ (signOf t).2 := by
  unfold signOf
  split <;> rfl

theorem whole_wholeOf (h : (wholeOf t).isEmpty = false) :
    IsWhole (wholeOf t) ∧ t = wholeOf t ++ t.drop (wholeOf t).length := by
  unfold wholeOf at h ⊢
  split at h
  · exact ⟨.inl rfl, rfl⟩
  · rename_i hz
    refine ⟨.inr ⟨isFigures_takeWhile h, ?_⟩, ?_⟩
    · intro hhead
      obtain ⟨more, hmore⟩ := List.head?_eq_some_iff.mp hhead
      have hp := List.takeWhile_prefix isFigure (l := t)
      rw [hmore] at hp
      obtain ⟨last, rfl⟩ := hp
      exact hz _ rfl
    · exact (List.prefix_iff_eq_append.mp (List.takeWhile_prefix _)).symm

theorem fraction_fractionOf (t : Text) :
    ∃ f, t = f ++ (fractionOf t).2 ∧ Fraction (fractionOf t).1 f := by
  unfold fractionOf
  split
  · rename_i more
    dsimp only
    split
    · exact ⟨[], rfl, .none⟩
    · rename_i h
      refine ⟨_, ?_, .some (isFigures_takeWhile (by simpa using h))⟩
      rw [List.cons_append, List.takeWhile_append_dropWhile]
  · exact ⟨[], rfl, .none⟩

theorem exponent_of_digits {e : CodePoint} (sign : Text) {negative : Bool} (digits : Text)
    (h : ∀ ds, IsFigures ds → Exponent (some (negative, ds)) (e :: (sign ++ ds))) :
    let found : Option (Bool × Text) × Text :=
      if (digits.takeWhile isFigure).isEmpty then (none, e :: (sign ++ digits))
      else (some (negative, digits.takeWhile isFigure), digits.dropWhile isFigure)
    ∃ s, e :: (sign ++ digits) = s ++ found.2 ∧ Exponent found.1 s := by
  intro found
  by_cases hempty : (digits.takeWhile isFigure).isEmpty = true
  · have hfound : found = (none, e :: (sign ++ digits)) := if_pos hempty
    rw [hfound]
    exact ⟨[], rfl, .none⟩
  · have hfound : found = (some (negative, digits.takeWhile isFigure), digits.dropWhile isFigure) :=
      if_neg hempty
    rw [hfound]
    refine ⟨_, ?_, h _ (isFigures_takeWhile (by simpa using hempty))⟩
    rw [List.cons_append, List.append_assoc, List.takeWhile_append_dropWhile]

theorem exponent_exponentOf (t : Text) :
    ∃ e, t = e ++ (exponentOf t).2 ∧ Exponent (exponentOf t).1 e := by
  cases t with
  | nil => exact ⟨[], rfl, .none⟩
  | cons e t =>
    rw [exponentOf.eq_def]
    dsimp only
    by_cases he : e = 'e' ∨ e = 'E'
    · simp only [if_pos he]
      split
      · exact exponent_of_digits [.char '-'] _ fun ds hd => .minus he hd
      · exact exponent_of_digits [.char '+'] _ fun ds hd => .plus he hd
      · exact exponent_of_digits [] _ fun ds hd => .plain he hd
    · simp only [if_neg he]
      exact ⟨[], rfl, .none⟩

/-- A number that is found is spelled at the front of the text. -/
theorem spelled_of_numeral? {n : Numeral} (h : numeral? t = some (n, rest)) :
    ∃ s, t = s ++ rest ∧ n.Spelled s := by
  rw [numeral?] at h
  have hs := sign_signOf t
  generalize signOf t = sign at h hs
  obtain ⟨negative, behind⟩ := sign
  dsimp only at h hs
  by_cases hempty : (wholeOf behind).isEmpty = true
  · rw [if_pos hempty] at h
    cases h
  rw [if_neg hempty] at h
  obtain ⟨hw, hwt⟩ := whole_wholeOf (by simpa using hempty)
  obtain ⟨f, hft, hf⟩ := fraction_fractionOf (behind.drop (wholeOf behind).length)
  generalize fractionOf (behind.drop (wholeOf behind).length) = fraction at h hft hf
  obtain ⟨e, het, he⟩ := exponent_exponentOf fraction.2
  generalize exponentOf fraction.2 = exponent at h het he
  obtain ⟨rfl, rfl⟩ := Prod.mk.inj (Option.some.inj h)
  refine ⟨_, ?_, .mk hw hf he⟩
  have hall : behind = wholeOf behind ++ (f ++ (e ++ exponent.2)) := by rw [← het, ← hft, ← hwt]
  calc
    t = _ ++ behind := hs
    _ = _ ++ (wholeOf behind ++ (f ++ (e ++ exponent.2))) := congrArg _ hall
    _ = _ := by simp [Numeral.sign]

/-! An integer ends where nothing goes on with it, and only there. -/

theorem not_goesOn_nil : ¬ GoesOn [] := by
  generalize h : ([] : Text) = t
  intro hg
  cases hg with
  | figure => cases h
  | fraction => cases h
  | exponent he rest => cases he <;> cases h

theorem fractionOf_of_not_goesOn (h : ¬ GoesOn t) : fractionOf t = ([], t) := by
  obtain ⟨f, ht, hf⟩ := fraction_fractionOf t
  generalize fractionOf t = found at ht hf
  obtain ⟨fraction, rest⟩ := found
  cases hf with
  | none => rw [ht]; rfl
  | some hd => exact absurd (ht ▸ .fraction hd rest) h

theorem exponentOf_of_not_goesOn (h : ¬ GoesOn t) : exponentOf t = (none, t) := by
  obtain ⟨e, ht, he⟩ := exponent_exponentOf t
  generalize exponentOf t = found at ht he
  obtain ⟨exponent, rest⟩ := found
  cases exponent with
  | none =>
    cases he
    rw [ht]
    rfl
  | some x => exact absurd (ht ▸ .exponent he rest) h

theorem Fraction.eq_nil {f : Text} (h : Fraction [] f) : f = [] := by
  cases h with
  | none => rfl
  | some hd => exact absurd rfl hd.1

theorem numeral?_of_integer {n : Numeral} (h : n.Spelled t) (hi : n.IsInteger)
    (hr : ¬ GoesOn rest) : numeral? (t ++ rest) = some (n, rest) := by
  obtain ⟨negative, whole, fraction, exponent⟩ := n
  obtain ⟨rfl, rfl⟩ := hi
  cases h with
  | @mk f e hw hf he =>
    obtain rfl := hf.eq_nil
    cases he
    have hfigure : ∀ c ∈ rest.head?, isFigure c = false := by
      intro c hc
      obtain ⟨more, rfl⟩ := List.head?_eq_some_iff.mp hc
      exact Bool.eq_false_iff.mpr fun h => hr (.figure h)
    have hwhole := wholeOf_append hw hfigure
    obtain ⟨d, ds, hds, hd⟩ := hw.exists_cons
    have hs := signOf_append (n := ⟨negative, whole, [], none⟩) (t := ds ++ rest) hd
    rw [← List.cons_append, ← hds] at hs
    rw [List.append_nil, List.append_nil, List.append_assoc, numeral?, hs]
    have hne : whole.isEmpty ≠ true := by
      rw [show whole = d :: ds from hds]
      exact Bool.false_ne_true
    simp only [hwhole, List.drop_left, fractionOf_of_not_goesOn hr, exponentOf_of_not_goesOn hr]
    exact if_neg hne

/-- With the digits behind it, an exponent ends where no digit follows. -/
theorem Exponent.exists_longest {x : Bool × Text} {e : Text} (h : Exponent (some x) e)
    (rest : Text) : ∃ y s more, e ++ rest = s ++ more ∧ Exponent (some y) s ∧
      ∀ c ∈ more.head?, isFigure c = false := by
  have hmore : ∀ c ∈ (rest.dropWhile isFigure).head?, isFigure c = false := by
    intro c hc
    have hn := List.head?_dropWhile_not isFigure rest
    rw [hc] at hn
    simpa using hn
  have hdigits : ∀ {digits : Text}, IsFigures digits →
      IsFigures (digits ++ rest.takeWhile isFigure) := by
    intro digits hd
    refine ⟨by simp [hd.1], ?_⟩
    intro c hc
    obtain hc | hc := List.mem_append.mp hc
    · exact hd.2 c hc
    · exact List.all_eq_true.mp List.all_takeWhile c hc
  have hsplit : rest = rest.takeWhile isFigure ++ rest.dropWhile isFigure :=
    List.takeWhile_append_dropWhile.symm
  cases h with
  | plain he hd =>
    refine ⟨_, _, _, ?_, .plain he (hdigits hd), hmore⟩
    rw [List.cons_append, List.cons_append, List.append_assoc, ← hsplit]
  | plus he hd =>
    refine ⟨_, _, _, ?_, .plus he (hdigits hd), hmore⟩
    rw [List.cons_append, List.cons_append, List.cons_append, List.cons_append, List.append_assoc,
      ← hsplit]
  | minus he hd =>
    refine ⟨_, _, _, ?_, .minus he (hdigits hd), hmore⟩
    rw [List.cons_append, List.cons_append, List.cons_append, List.cons_append, List.append_assoc,
      ← hsplit]

theorem fractionOf_of_figures (hd : IsFigures digits) (rest : Text) :
    (fractionOf (.char '.' :: digits ++ rest)).1 ≠ [] := by
  obtain ⟨d, ds, rfl, hfigure⟩ := hd.exists_cons
  rw [List.cons_append, List.cons_append, fractionOf]
  simp [hfigure]

/-- Behind a number that is found, nothing goes on with it. -/
theorem not_goesOn_of_numeral? {n : Numeral} (h : numeral? t = some (n, rest)) (hi : n.IsInteger)
    (hw : n.whole ≠ [.char '0']) : ¬ GoesOn rest := by
  rw [numeral?] at h
  generalize signOf t = sign at h
  obtain ⟨negative, behind⟩ := sign
  dsimp only at h
  by_cases hempty : (wholeOf behind).isEmpty = true
  · rw [if_pos hempty] at h
    cases h
  rw [if_neg hempty] at h
  obtain ⟨hwhole, hbehind⟩ := whole_wholeOf (by simpa using hempty)
  obtain ⟨f, hft, hf⟩ := fraction_fractionOf (behind.drop (wholeOf behind).length)
  have hfound : (fractionOf (behind.drop (wholeOf behind).length)).1 = n.fraction ∧
      exponentOf (fractionOf (behind.drop (wholeOf behind).length)).2 = (n.exponent, rest) ∧
      wholeOf behind = n.whole := by
    obtain ⟨rfl, rfl⟩ := Prod.mk.inj (Option.some.inj h)
    exact ⟨rfl, rfl, rfl⟩
  obtain ⟨hfraction, hexponent, hn⟩ := hfound
  rw [hfraction, hi.1] at hf
  rw [hf.eq_nil, List.nil_append] at hft
  rw [← hft, hi.2] at hexponent
  obtain ⟨e, het, he⟩ := exponent_exponentOf (behind.drop (wholeOf behind).length)
  rw [hexponent] at het he
  cases he
  -- so all that was left behind the digits is the rest
  rw [List.nil_append] at het
  rw [het] at hexponent hfraction hbehind
  intro hg
  cases hg with
  | @figure c more hc =>
    obtain h0 | ⟨hd, -⟩ := hwhole
    · exact hw (hn ▸ h0)
    · have hlonger : wholeOf behind = behind.takeWhile isFigure := by
        unfold wholeOf
        split
        · rename_i more'
          exact absurd (hn.symm.trans rfl) hw
        · rfl
      have htake := congrArg (List.takeWhile isFigure) hbehind
      rw [← hlonger, List.takeWhile_append_of_pos hd.2, List.takeWhile_cons_of_pos hc] at htake
      simpa using congrArg List.length htake
  | fraction hd more => exact fractionOf_of_figures hd more (hfraction.trans hi.1)
  | exponent he more =>
    obtain ⟨y, s, last, hs, hy, hlast⟩ := he.exists_longest more
    rw [hs, exponentOf_append_some hy hlast] at hexponent
    cases hexponent

/-! Words and numbers -/

/-- An integer is beyond the reader if it is too long. -/
theorem numeral_value_cases (n : Numeral) :
    n.Fits ∧ n.value = .ok n.meaning ∨
    n.IsInteger ∧ digitLimit < n.whole.length ∧
      n.value = .error (.longInteger n.whole.length) := by
  obtain ⟨negative, whole, fraction, exponent⟩ := n
  cases fraction with
  | cons c fraction => exact .inl ⟨fun h => (List.cons_ne_nil c fraction h.1).elim, rfl⟩
  | nil =>
    cases exponent with
    | some e => exact .inl ⟨fun h => (Option.some_ne_none e h.2).elim, rfl⟩
    | none =>
      by_cases h : digitLimit < whole.length
      · exact .inr ⟨⟨rfl, rfl⟩, h, if_pos h⟩
      · exact .inl ⟨fun _ => Nat.le_of_not_lt h, if_neg h⟩

/-- A number starts with a digit, behind the sign if it has one. -/
theorem Numeral.Spelled.exists_cons {n : Numeral} (h : n.Spelled t) :
    ∃ c cs, isFigure c = true ∧ (t = c :: cs ∨ t = .char '-' :: c :: cs) := by
  cases h with
  | @mk f e hw hf he =>
    obtain ⟨c, cs, hc, hfigure⟩ := hw.exists_cons
    refine ⟨c, cs ++ f ++ e, hfigure, ?_⟩
    rw [hc, Numeral.sign]
    cases n.negative with
    | true => exact .inr rfl
    | false => exact .inl rfl

/-- No word starts with a digit, or with a minus before a digit. -/
theorem words_find?_figure {c : CodePoint} (hc : isFigure c = true) (t : Text) :
    (words.find? fun w => w.1.isPrefixOf (c :: t)) = none ∧
      (words.find? fun w => w.1.isPrefixOf (.char '-' :: c :: t)) = none := by
  have hn : c ≠ 'n' := by rintro rfl; exact absurd hc (by decide)
  have ht : c ≠ 't' := by rintro rfl; exact absurd hc (by decide)
  have hf : c ≠ 'f' := by rintro rfl; exact absurd hc (by decide)
  have hN : c ≠ 'N' := by rintro rfl; exact absurd hc (by decide)
  have hI : c ≠ 'I' := by rintro rfl; exact absurd hc (by decide)
  have hm : c ≠ '-' := by rintro rfl; exact absurd hc (by decide)
  constructor <;>
    simp [words, Text.of, List.isPrefixOf, hn.symm, ht.symm, hf.symm, hN.symm, hI.symm, hm.symm]

theorem isSpace_figure {c : CodePoint} (hc : isFigure c = true) : isSpace c = false := by
  rw [Bool.eq_false_iff]
  intro hs
  simp only [isSpace, Bool.or_eq_true, beq_iff_eq] at hs
  rcases hs with ((rfl | rfl) | rfl) | rfl <;> exact absurd hc (by decide)

theorem Numeral.Spelled.opens {n : Numeral} (h : n.Spelled t) : Opens t := by
  obtain ⟨c, cs, hc, rfl | rfl⟩ := h.exists_cons
  · refine ⟨c, cs, rfl, isSpace_figure hc, ?_, ?_, ?_⟩ <;> rintro rfl <;> exact absurd hc (by decide)
  · exact ⟨_, _, rfl, by decide⟩

theorem valueWithin_spelled (room : Nat) {n : Numeral} (h : n.Spelled t)
    (hnumeral : numeral? (t ++ rest) = some (n, rest)) :
    valueWithin room (t ++ rest) = n.value.map fun v => (v, rest) := by
  obtain ⟨c, cs, hc, rfl | rfl⟩ := h.exists_cons
  · rw [valueWithin_eq_plain, plain, List.cons_append, (words_find?_figure hc (cs ++ rest)).1]
    · simp only [← List.cons_append, hnumeral]
    · intro d hd
      obtain rfl : c = d := by simpa using hd
      refine ⟨?_, ?_, ?_⟩ <;> (rintro rfl; exact absurd hc (by decide))
  · rw [valueWithin_eq_plain, plain, List.cons_append, List.cons_append,
      (words_find?_figure hc (cs ++ rest)).2]
    · simp only [← List.cons_append, hnumeral]
    · intro d hd
      obtain rfl : _ = d := by simpa using hd
      decide

theorem takes_number {stops : Stop → Prop} (room : Nat) {n : Numeral} (h : n.Spelled t)
    (hv : Gets stops n.value n.meaning) : Takes stops (valueWithin room) t n.meaning := by
  refine ⟨fun rest hr => ?_, h.opens⟩
  rw [valueWithin_spelled room h (numeral?_of_spelled h hr)]
  exact hv.map fun v => (v, rest)

theorem takes_word {stops : Stop → Prop} (room : Nat) {v : Json} (h : (t, v) ∈ words) :
    Takes stops (valueWithin room) t v := by
  simp only [words, List.mem_cons, List.not_mem_nil, or_false, Prod.mk.injEq] at h
  rcases h with ⟨rfl, rfl⟩ | ⟨rfl, rfl⟩ | ⟨rfl, rfl⟩ | ⟨rfl, rfl⟩ | ⟨rfl, rfl⟩ | ⟨rfl, rfl⟩
  all_goals
    refine ⟨fun rest _ => .inl ?_, _, _, rfl, by decide⟩
    rw [valueWithin_eq_plain]
    · rfl
    · intro c hc
      obtain rfl : _ = c := Option.some.inj hc
      decide

end Syllogism.Json
