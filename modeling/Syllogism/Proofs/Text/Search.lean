import Mathlib.Data.List.Forall2
import Syllogism.Text.Search

/-! Where a search for a token stops, and what it passes over. -/

namespace Syllogism.Text

variable {token s t u : Text} {a : CodePoint} {n m i k : Nat}

theorem spells_append (h : spells token t = true) (s : Text) : spells token (t ++ s) = true := by
  fun_induction spells token t with
  | case1 => simp [spells]
  | case2 => cases h
  | case3 p ps c cs ih =>
    rw [Bool.and_eq_true] at h
    simp [spells, h.1, ih h.2]

theorem length_le_of_spells (h : spells token t = true) : token.length ≤ t.length := by
  fun_induction spells token t with
  | case1 => exact Nat.zero_le _
  | case2 => cases h
  | case3 p ps c cs ih =>
    rw [Bool.and_eq_true] at h
    exact Nat.succ_le_succ (ih h.2)

theorem spells_self_append (token s : Text) : spells token (token ++ s) = true := by
  induction token with
  | nil => simp [spells]
  | cons a token ih => simp [spells, sameLetter, ih]

theorem indexFrom?_of_spells (h : spells token t = true) : indexFrom? token n t = some n := by
  cases t <;> simp [indexFrom?, h]

theorem le_of_indexFrom? (h : indexFrom? token n t = some i) : n ≤ i := by
  fun_induction indexFrom? token n t with
  | case1 n ht => simp_all
  | case2 n ht => cases h
  | case3 n c rest ht => simp_all
  | case4 n c rest ht ih =>
    have := ih h
    omega

theorem spells_of_indexFrom? (h : indexFrom? token n t = some i) :
    spells token (t.drop (i - n)) = true := by
  fun_induction indexFrom? token n t with
  | case1 n ht => simp_all
  | case2 n ht => cases h
  | case3 n c rest ht => simp_all
  | case4 n c rest ht ih =>
    have hn := le_of_indexFrom? h
    rw [show i - n = i - (n + 1) + 1 by omega]
    exact ih h

/-- A token is nowhere if it starts none of the endings of the text. -/
theorem indexFrom?_eq_none_iff :
    indexFrom? token n t = none ↔ ∀ s, s <:+ t → spells token s = false := by
  induction t generalizing n with
  | nil => simp [indexFrom?]
  | cons c t ih =>
    simp only [indexFrom?, List.suffix_cons_iff, forall_eq_or_imp, ← ih (n := n + 1)]
    cases spells token (c :: t) <;> simp

/-- Where a token is nowhere in a text, it is nowhere in a part of the text. -/
theorem indexFrom?_eq_none_of_part (hs : s <:+: t) (h : indexFrom? token n t = none) :
    indexFrom? token m s = none := by
  rw [indexFrom?_eq_none_iff] at h ⊢
  intro r hr
  obtain ⟨before, after, rfl⟩ := hs
  have hra : r ++ after <:+ before ++ s ++ after := by
    obtain ⟨q, rfl⟩ := hr
    exact ⟨before ++ q, by simp⟩
  refine Bool.eq_false_iff.mpr fun hn => ?_
  have hsp := spells_append hn after
  rw [h _ hra] at hsp
  cases hsp

/-- The token starts with the letter of no character in the text. -/
def Misses (token t : Text) : Prop := ∀ c ∈ t, token.head?.any (fun a => sameLetter a c) = false

instance (token t : Text) : Decidable (Misses token t) :=
  inferInstanceAs (Decidable (∀ c ∈ t, _))

/-- A search passes over characters with which the token cannot start. -/
theorem indexFrom?_append (ht : token ≠ []) (hu : Misses token u) (n : Nat) (s : Text) :
    indexFrom? token n (u ++ s) = indexFrom? token (n + u.length) s := by
  obtain ⟨a, token, rfl⟩ := List.exists_cons_of_ne_nil ht
  induction u generalizing n with
  | nil => rfl
  | cons c u ih =>
    have hc : sameLetter a c = false := hu c List.mem_cons_self
    have hs : Misses (a :: token) u := fun c hc => hu c (List.mem_cons_of_mem _ hc)
    have hn : n + 1 + u.length = n + (c :: u).length := by simp only [List.length_cons]; omega
    rw [List.cons_append, indexFrom?, ih (n + 1) hs, hn]
    simp [spells, hc]

/-- The first token in the order of the list that stands in the text decides. -/
theorem find?_eq_bind (tokens : List Text) (n : Nat) (t : Text) : find? tokens n t =
    (tokens.find? fun p => !p.isEmpty && (indexFrom? p n (t.drop n)).isSome).bind fun p =>
      (indexFrom? p n (t.drop n)).map fun i => (i, (t.drop i).take p.length) := by
  unfold find?
  induction tokens with
  | nil => rfl
  | cons p tokens ih =>
    rw [List.findSome?_cons, List.find?_cons, ih]
    cases he : p.isEmpty with
    | true => simp
    | false => cases hi : indexFrom? p n (t.drop n) <;> simp [hi]

/-- What stands at the place that was found is as long as the token. -/
theorem length_take_of_indexFrom? (h : indexFrom? token n (t.drop n) = some i) :
    ((t.drop i).take token.length).length = token.length := by
  have hs := spells_of_indexFrom? h
  rw [List.drop_drop, Nat.add_sub_cancel' (le_of_indexFrom? h)] at hs
  rw [List.length_take, Nat.min_eq_left (length_le_of_spells hs)]

/-! The index is that of the first place -/

/-- A text that starts with the token is an answer at once. -/
theorem eq_some_iff_of_spells (hs : spells token t = true) : some n = some (n + k) ↔
    spells token (t.drop k) = true ∧ ∀ j < k, spells token (t.drop j) = false := by
  constructor
  · intro h
    have hn := Option.some.inj h
    obtain rfl : k = 0 := by omega
    exact ⟨hs, fun j hj => absurd hj (Nat.not_lt_zero j)⟩
  · rintro ⟨-, hk⟩
    obtain rfl : k = 0 := by
      by_contra hne
      exact Bool.false_ne_true ((hk 0 (Nat.pos_of_ne_zero hne)).symm.trans hs)
    rfl

/-- A search answers with the first ending of the text that the token starts. -/
theorem indexFrom?_eq_some_iff : indexFrom? token n t = some (n + k) ↔
    spells token (t.drop k) = true ∧ ∀ j < k, spells token (t.drop j) = false := by
  induction t generalizing n k with
  | nil =>
    cases hs : spells token [] with
    | true => rw [indexFrom?_of_spells hs, eq_some_iff_of_spells hs]
    | false => simp [indexFrom?, hs]
  | cons c t ih =>
    cases hs : spells token (c :: t) with
    | true => rw [indexFrom?_of_spells hs, eq_some_iff_of_spells hs]
    | false =>
      rw [indexFrom?, hs, if_neg Bool.false_ne_true]
      cases k with
      | zero =>
        have hn : indexFrom? token (n + 1) t ≠ some n := fun h => by
          have := le_of_indexFrom? h
          omega
        simp only [Nat.add_zero, List.drop_zero, hs, Bool.false_eq_true, false_and, hn]
      | succ k =>
        rw [show n + (k + 1) = n + 1 + k by omega, ih, Nat.forall_lt_succ_left]
        simp only [List.drop_succ_cons, List.drop_zero, hs, true_and]

/-- The same with the places counted in the whole text. -/
theorem indexFrom?_drop_eq_some_iff : indexFrom? token n (t.drop n) = some i ↔ n ≤ i ∧
    spells token (t.drop i) = true ∧ ∀ j, n ≤ j → j < i → spells token (t.drop j) = false := by
  constructor
  · intro h
    obtain ⟨k, rfl⟩ := Nat.exists_eq_add_of_le (le_of_indexFrom? h)
    obtain ⟨hs, hk⟩ := indexFrom?_eq_some_iff.mp h
    rw [List.drop_drop] at hs
    refine ⟨Nat.le_add_right n k, hs, fun j hn hj => ?_⟩
    obtain ⟨m, rfl⟩ := Nat.exists_eq_add_of_le hn
    rw [← List.drop_drop]
    exact hk m (by omega)
  · rintro ⟨hn, hs, hk⟩
    obtain ⟨k, rfl⟩ := Nat.exists_eq_add_of_le hn
    refine indexFrom?_eq_some_iff.mpr ⟨by rwa [List.drop_drop], fun j hj => ?_⟩
    rw [List.drop_drop]
    exact hk (n + j) (by omega) (by omega)

theorem indexFrom?_drop_eq_none_iff :
    indexFrom? token n (t.drop n) = none ↔ ∀ i, n ≤ i → spells token (t.drop i) = false := by
  rw [indexFrom?_eq_none_iff]
  constructor
  · intro h i hn
    obtain ⟨k, rfl⟩ := Nat.exists_eq_add_of_le hn
    rw [← List.drop_drop]
    exact h _ (List.drop_suffix k _)
  · intro h s hs
    rw [List.suffix_iff_eq_drop.mp hs, List.drop_drop]
    exact h _ (Nat.le_add_right n _)

/-- The text is the token letter for letter, each in one of its forms. -/
def FormOf (token u : Text) : Prop := List.Forall₂ (fun a c => sameLetter a c = true) token u

theorem spells_iff_take : spells token t = true ↔ FormOf token (t.take token.length) := by
  fun_induction spells token t with
  | case1 => simp [FormOf]
  | case2 => simp [FormOf]
  | case3 p ps c cs ih =>
    rw [Bool.and_eq_true, ih, List.length_cons, List.take_succ_cons]
    simp only [FormOf, List.forall₂_cons]

theorem spells_iff : spells token t = true ↔ ∃ u, FormOf token u ∧ u <+: t := by
  refine ⟨fun h => ⟨_, spells_iff_take.mp h, List.take_prefix _ _⟩, ?_⟩
  rintro ⟨u, hu, hp⟩
  rw [spells_iff_take, List.Forall₂.length_eq hu, ← List.prefix_iff_eq_take.mp hp]
  exact hu

/-- At that index of the text, a form of the token is written. An empty token stands nowhere. -/
def StandsAt (token : Text) (i : Nat) (t : Text) : Prop :=
  token ≠ [] ∧ ∃ u, FormOf token u ∧ u <+: t.drop i

theorem standsAt_iff : StandsAt token i t ↔ token ≠ [] ∧ spells token (t.drop i) = true := by
  rw [StandsAt, spells_iff]

end Syllogism.Text
