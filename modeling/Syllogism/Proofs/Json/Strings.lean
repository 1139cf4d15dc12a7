import Syllogism.Proofs.Except
import Syllogism.Proofs.Json.Reads

/-! Strings: the reader takes what stands between quotes for what it spells, and nothing else. -/

namespace Syllogism.Json

/-- The reader gave up where the text need not be at fault. -/
def Stop.isLimit : Stop → Bool
  | .fault _ _ => false
  | .longInteger _ => true
  | .deepNesting => true

theorem Quoted.exists_code {s t rest : Text} {n : Option Nat} (h : Quoted s t)
    (hn : code? (s ++ .char '"' :: rest) = some n) :
    ∃ a b c d more m, s = .char '\\' :: .char 'u' :: a :: b :: c :: d :: more ∧
      unit? a b c d = some m ∧ n = some m := by
  cases h with
  | nil => cases hn
  | plain hq hb hc hs =>
    obtain ⟨a, b, c, d, more, heq, -⟩ := code?_eq_some_iff.mp hn
    exact absurd (List.cons.inj heq).1 hb
  | escaped he hs =>
    obtain ⟨a, b, c, d, more, heq, -⟩ := code?_eq_some_iff.mp hn
    rw [(List.cons.inj (List.cons.inj heq).2).1] at he
    cases he
  | code hm hl hs =>
    rw [List.cons_append, List.cons_append, List.cons_append, List.cons_append, List.cons_append,
      List.cons_append, code?_eq_some (by simp)] at hn
    exact ⟨_, _, _, _, _, _, rfl, hm, (Option.some.inj hn).symm.trans hm⟩
  | pair hm hh hm' hl hs =>
    rw [List.cons_append, List.cons_append, List.cons_append, List.cons_append, List.cons_append,
      List.cons_append, code?_eq_some (by simp)] at hn
    exact ⟨_, _, _, _, _, _, rfl, hm, (Option.some.inj hn).symm.trans hm⟩

theorem quotes_of_quoted {s t : Text} (h : Quoted s t) : Quotes s t := by
  induction h with
  | nil => exact quotes_nil
  | plain hq hb hc hs ih =>
    intro opened rest
    rw [List.cons_append, stringFrom_cons hq hb hc, ih]
    rfl
  | escaped he hs ih =>
    intro opened rest
    rw [List.cons_append, List.cons_append, stringFrom_escaped he, ih]
    rfl
  | code hn hl hs ih =>
    intro opened rest
    simp only [List.cons_append]
    rw [stringFrom_code hn opened (by simp), ih]
    · rfl
    · intro hh low hlow
      obtain ⟨a, b, c, d, more, m, rfl, hm, rfl⟩ := hs.exists_code hlow
      refine ⟨m, rfl, Bool.eq_false_iff.mpr ?_⟩
      intro hm'
      exact hl hh ⟨a, b, c, d, more, m, rfl, hm, hm'⟩
  | pair hn hh hn' hl hs ih =>
    intro opened rest
    simp only [List.cons_append]
    rw [stringFrom_pair hn hh hn' hl opened (by simp), ih]
    rfl

theorem OpensLow.code?_append {s : Text} (h : OpensLow s) (rest : Text) :
    ∃ low, isLowHalf low = true ∧ code? (s ++ .char '"' :: rest) = some (some low) := by
  obtain ⟨a, b, c, d, more, low, rfl, hm, hl⟩ := h
  refine ⟨low, hl, ?_⟩
  simp only [List.cons_append]
  exact (code?_eq_some (by simp)).trans (congrArg some hm)

theorem exists_of_prepend {α : Type} {a : α} {r : Except Stop (List α × Text)} {as : List α}
    {rest : Text} (h : prepend a r = .ok (as, rest)) :
    ∃ as', as = a :: as' ∧ r = .ok (as', rest) := by
  obtain ⟨p, hr, hp⟩ := map_eq_ok.mp h
  obtain ⟨rfl, rfl⟩ := Prod.mk.inj hp
  exact ⟨p.1, rfl, hr⟩

theorem exists_of_code {t : Text} {n : Nat}
    (h : code? (.char '\\' :: .char 'u' :: t) = some (some n)) :
    ∃ a b c d, t = a :: b :: c :: d :: t.drop 4 ∧ unit? a b c d = some n := by
  obtain ⟨a, b, c, d, rest, heq, -, hn⟩ := code?_eq_some_iff.mp h
  obtain rfl := (List.cons.inj (List.cons.inj heq).2).2
  exact ⟨a, b, c, d, rfl, hn⟩

/-- A code in front of what spells a string, unless the two make a pair. -/
theorem quoted_code {more rest t : Text} {n : Nat}
    (hn : code? (.char '\\' :: .char 'u' :: more) = some (some n))
    (hlow : ∀ low, isLowHalf low = true → isHighHalf n = true →
      code? (more.drop 4) ≠ some (some low))
    (h : ∃ s, more.drop 4 = s ++ .char '"' :: rest ∧ Quoted s t) :
    ∃ s, .char '\\' :: .char 'u' :: more = s ++ .char '"' :: rest ∧ Quoted s (.ofCode n :: t) := by
  obtain ⟨s, hs, hq⟩ := h
  obtain ⟨a, b, c, d, hmore, hn⟩ := exists_of_code hn
  refine ⟨_, ?_, .code hn ?_ hq⟩
  · rw [hmore, hs]
    rfl
  · intro hh ho
    obtain ⟨low, hl, hc⟩ := ho.code?_append rest
    exact hlow low hl hh (hs ▸ hc)

/-- Only a quote ends a string, and what stands before it spells the string. -/
theorem quoted_of_stringFrom {opened : Nat} {u t rest : Text}
    (h : stringFrom opened u = .ok (t, rest)) : ∃ s, u = s ++ .char '"' :: rest ∧ Quoted s t := by
  fun_induction stringFrom opened u generalizing t with
  | case1 | case3 | case4 | case5 | case7 | case12 | case13 => cases h
  | case2 more =>
    obtain ⟨rfl, rfl⟩ := Prod.mk.inj (Except.ok.inj h)
    exact ⟨[], rfl, .nil⟩
  | case6 more n hn hh hnone ih =>
    obtain ⟨t', rfl, hr⟩ := exists_of_prepend h
    exact quoted_code hn (fun low _ _ hc => by rw [hnone] at hc; cases hc) (ih hr)
  | case8 more n hn hh low hlow hl ih =>
    obtain ⟨t', rfl, hr⟩ := exists_of_prepend h
    obtain ⟨s, hs, hq⟩ := ih hr
    obtain ⟨a, b, c, d, hmore, hn⟩ := exists_of_code hn
    obtain ⟨a', b', c', d', more', hmore', -, hlow⟩ := code?_eq_some_iff.mp hlow
    have hs' : more' = s ++ .char '"' :: rest := by
      rw [← hs, show more.drop 10 = (more.drop 4).drop 6 by simp, hmore']
      rfl
    refine ⟨_, ?_, .pair hn hh hlow hl hq⟩
    rw [hmore, hmore', hs']
    rfl
  | case9 more n hn hh low hlow hl ih =>
    obtain ⟨t', rfl, hr⟩ := exists_of_prepend h
    refine quoted_code hn (fun low' hl' _ hc => ?_) (ih hr)
    rw [hlow] at hc
    obtain rfl := Option.some.inj (Option.some.inj hc)
    exact hl hl'
  | case10 more n hn hh ih =>
    obtain ⟨t', rfl, hr⟩ := exists_of_prepend h
    exact quoted_code hn (fun low _ hh' => absurd hh' hh) (ih hr)
  | case11 e more hu c he ih =>
    obtain ⟨t', rfl, hr⟩ := exists_of_prepend h
    obtain ⟨s, rfl, hq⟩ := ih hr
    exact ⟨_, rfl, .escaped he hq⟩
  | case14 c more hq hb hc ih =>
    obtain ⟨t', rfl, hr⟩ := exists_of_prepend h
    obtain ⟨s, rfl, hs⟩ := ih hr
    exact ⟨_, rfl, .plain hq hb (by omega) hs⟩

/-- In a string there is no limit to meet. -/
theorem isLimit_of_stringFrom {opened : Nat} {u : Text} {s : Stop}
    (h : stringFrom opened u = .error s) : s.isLimit = false := by
  fun_induction stringFrom opened u with
  | case1 | case3 | case4 | case5 | case7 | case12 | case13 =>
    obtain rfl := Except.error.inj h
    rfl
  | case2 => cases h
  | case6 _ _ _ _ _ ih | case8 _ _ _ _ _ _ _ ih | case9 _ _ _ _ _ _ _ ih | case10 _ _ _ _ ih
  | case11 _ _ _ _ _ ih | case14 _ _ _ _ _ ih => exact ih (map_eq_error.mp h)

end Syllogism.Json
