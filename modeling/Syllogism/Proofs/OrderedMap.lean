import Mathlib.Data.List.Induction
import Syllogism.OrderedMap

/-! Pairs with distinct keys are a map already, and what a map holds is what stands in its list. -/

namespace Syllogism.OrderedMap

variable {α β γ : Type} [DecidableEq α]

theorem putIn_of_notMem {k : α} {v : β} {l : List (α × β)} (h : k ∉ l.map Prod.fst) :
    putIn k v l = l ++ [(k, v)] := by
  induction l with
  | nil => rfl
  | cons p l ih =>
    rw [List.map_cons, List.mem_cons, not_or] at h
    rw [putIn, if_neg h.1, ih h.2, List.cons_append]

theorem putIn_putIn (k : α) (v w : β) (l : List (α × β)) :
    putIn k v (putIn k w l) = putIn k v l := by
  induction l with
  | nil => simp [putIn]
  | cons p l ih =>
    by_cases h : k = p.1
    · simp [putIn, h]
    · simp [putIn, h, ih]

theorem putIn_of_valueIn? {k : α} {v : β} {l : List (α × β)} (h : valueIn? k l = some v) :
    putIn k v l = l := by
  induction l with
  | nil => cases h
  | cons p l ih =>
    rw [valueIn?] at h
    split at h
    · rename_i hk
      obtain rfl := Option.some.inj h
      rw [putIn, if_pos hk]
    · rename_i hk
      rw [putIn, if_neg hk, ih h]

/-- A pair that was new is gone again. -/
theorem dropIn_putIn {k : α} {v : β} {l : List (α × β)} (h : k ∉ l.map Prod.fst) :
    dropIn k (putIn k v l) = l := by
  have hl : l.filter (fun p => p.1 ≠ k) = l := by
    rw [List.filter_eq_self]
    intro p hp
    have hne : p.1 ≠ k := fun hk => h (hk ▸ List.mem_map_of_mem hp)
    simpa using hne
  rw [putIn_of_notMem h, dropIn, List.filter_append, hl]
  simp

theorem foldl_putIn_of_nodup {l pairs : List (α × β)}
    (h : ((l ++ pairs).map Prod.fst).Nodup) :
    pairs.foldl (fun settled p => putIn p.1 p.2 settled) l = l ++ pairs := by
  induction pairs generalizing l with
  | nil => simp
  | cons p pairs ih =>
    have hp : p.1 ∉ l.map Prod.fst := by
      rw [List.map_append, List.nodup_append] at h
      exact fun hm => h.2.2 p.1 hm p.1 (by simp) rfl
    rw [List.foldl_cons, putIn_of_notMem hp, ih (by simpa using h)]
    simp

/-- There is nothing to settle where each key comes once. -/
theorem settle_of_nodup {pairs : List (α × β)} (h : (pairs.map Prod.fst).Nodup) :
    settle pairs = pairs :=
  foldl_putIn_of_nodup h

theorem settle_append_singleton (pairs : List (α × β)) (p : α × β) :
    settle (pairs ++ [p]) = putIn p.1 p.2 (settle pairs) := by
  simp [settle, List.foldl_append]

/-- The keys stand in the order of their first mention. -/
theorem keys_settle [BEq α] [LawfulBEq α] (pairs : List (α × β)) :
    (settle pairs).map Prod.fst = (pairs.map Prod.fst).eraseDups := by
  induction pairs using List.reverseRecOn with
  | nil => rfl
  | append_singleton pairs p ih =>
    have hmem : p.1 ∈ (pairs.map Prod.fst).eraseDups ↔ p.1 ∈ pairs.map Prod.fst :=
      List.mem_eraseDups
    rw [settle_append_singleton, keys_putIn, ih, List.map_append, List.eraseDups_append]
    simp only [hmem]
    by_cases h : p.1 ∈ pairs.map Prod.fst
    · simp [h, List.removeAll]
    · simp [h, List.removeAll, List.eraseDups_cons]

/-- Each key has the value of its last mention. -/
theorem valueIn?_settle (k : α) (pairs : List (α × β)) :
    valueIn? k (settle pairs) = valueIn? k pairs.reverse := by
  induction pairs using List.reverseRecOn with
  | nil => rfl
  | append_singleton pairs p ih =>
    rw [settle_append_singleton, valueIn?_putIn, ih, List.reverse_append]
    rfl

/-- The keys, if none comes twice, and their values are all there is to a list of pairs. -/
theorem ext_valueIn? {l m : List (α × β)} (hk : l.map Prod.fst = m.map Prod.fst)
    (hn : (l.map Prod.fst).Nodup) (hv : ∀ k, valueIn? k l = valueIn? k m) : l = m := by
  induction l generalizing m with
  | nil => exact (List.map_eq_nil_iff.mp hk.symm).symm
  | cons p l ih =>
    obtain ⟨q, m, rfl, hq, hm⟩ := List.map_eq_cons_iff.mp hk.symm
    have hp : p = q := by
      have h := hv p.1
      rw [valueIn?, valueIn?, if_pos rfl, if_pos hq.symm] at h
      exact Prod.ext hq.symm (Option.some.inj h)
    subst hp
    rw [List.map_cons, List.nodup_cons] at hn
    congr 1
    refine ih hm.symm hn.2 ?_
    intro k
    by_cases hkp : k = p.1
    · have hl : valueIn? k l = none := by
        rw [← Option.not_isSome_iff_eq_none, valueIn?_isSome, hkp]
        exact hn.1
      have hm' : valueIn? k m = none := by
        rw [← Option.not_isSome_iff_eq_none, valueIn?_isSome, hkp, hm]
        exact hn.1
      rw [hl, hm']
    · have h := hv k
      rwa [valueIn?, valueIn?, if_neg hkp, if_neg hkp] at h

theorem entries_ofList (pairs : List (α × β)) : (ofList pairs).entries = settle pairs := by
  have h : ∀ m : OrderedMap α β, (pairs.foldl (fun m p => m.put p.1 p.2) m).entries =
      pairs.foldl (fun settled p => putIn p.1 p.2 settled) m.entries := by
    induction pairs with
    | nil => exact fun _ => rfl
    | cons p pairs ih => exact fun m => ih (m.put p.1 p.2)
  exact h empty

theorem nodup_settle (pairs : List (α × β)) : ((settle pairs).map Prod.fst).Nodup :=
  entries_ofList pairs ▸ (ofList pairs).nodup

theorem ofList_entries (m : OrderedMap α β) : ofList m.entries = m :=
  ext ((entries_ofList m.entries).trans (settle_of_nodup m.nodup))

theorem valueIn?_eq_some_iff {k : α} {v : β} {l : List (α × β)} (h : (l.map Prod.fst).Nodup) :
    valueIn? k l = some v ↔ (k, v) ∈ l := by
  induction l with
  | nil => simp [valueIn?]
  | cons p l ih =>
    rw [List.map_cons, List.nodup_cons] at h
    rw [valueIn?, List.mem_cons]
    split
    · rename_i hk
      subst hk
      have hn : (p.1, v) ∉ l := fun hm => h.1 (List.mem_map.mpr ⟨_, hm, rfl⟩)
      constructor
      · rintro ⟨⟩
        exact .inl rfl
      · rintro (he | hm)
        · rw [← he]
        · exact absurd hm hn
    · rename_i hk
      rw [ih h.2]
      constructor
      · exact .inr
      · rintro (he | hm)
        · exact absurd (congrArg Prod.fst he) hk
        · exact hm

theorem get?_eq_some_iff {m : OrderedMap α β} {k : α} {v : β} :
    m.get? k = some v ↔ (k, v) ∈ m.entries :=
  valueIn?_eq_some_iff m.nodup

theorem valueIn?_map (f : β → γ) (k : α) (l : List (α × β)) :
    valueIn? k (l.map fun p => (p.1, f p.2)) = (valueIn? k l).map f := by
  induction l with
  | nil => rfl
  | cons p l ih =>
    rw [List.map_cons, valueIn?, valueIn?]
    split
    · rfl
    · exact ih

theorem get?_mapValues (f : β → γ) (m : OrderedMap α β) (k : α) :
    (m.mapValues f).get? k = (m.get? k).map f :=
  valueIn?_map f k m.entries

end Syllogism.OrderedMap
