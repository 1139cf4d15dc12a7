import Mathlib.Data.Set.Card
import Syllogism.Proofs.Walk.Plain

/-! Ways along links, each given by the positions of its links among those of their nodes. The plain
recursion comes to a node as often as there are ways to it, and only a way as long as the depth is
too deep for it. -/

namespace Syllogism.Walk

variable {α : Type} {out : α → List α} {depth : Nat} {found js : List α} {founds : List (List α)}
  {j k n : α} {way : List Nat}

/-- Where the way ends that starts at `k`; `none` if there is no link at one of its positions. -/
def follow? (out : α → List α) : (k : α) → (way : List Nat) → Option α
  | k, [] => some k
  | k, i :: way => (out k)[i]?.bind fun j => follow? out j way

/-- Where a way ends whose first position is among the nodes of a list. -/
def followFrom? (out : α → List α) (js : List α) : (way : List Nat) → Option α
  | [] => none
  | i :: way => js[i]?.bind fun j => follow? out j way

/-! Depth -/

theorem isSome_follow?_cons {i : Nat} :
    (follow? out k (i :: way)).isSome = true ↔
      ∃ j, (out k)[i]? = some j ∧ (follow? out j way).isSome = true := by
  rw [follow?]
  cases (out k)[i]? <;> simp

theorem length_lt_of_plain (h : plain out depth k = some found)
    (hw : (follow? out k way).isSome = true) : way.length < depth := by
  induction depth generalizing k found way with
  | zero => cases h
  | succ depth ih =>
    cases way with
    | nil => exact Nat.succ_pos depth
    | cons i way =>
      obtain ⟨j, hj, hw⟩ := isSome_follow?_cons.mp hw
      obtain ⟨founds, hf, -⟩ := plain_succ_eq_some.mp h
      obtain ⟨found, -, hp⟩ := exists_of_mem_forall₂ hf (List.mem_of_getElem? hj)
      exact Nat.succ_lt_succ (ih hp hw)

theorem exists_way_of_plain (h : plain out depth k = none) :
    ∃ way, way.length = depth ∧ (follow? out k way).isSome = true := by
  induction depth generalizing k with
  | zero => exact ⟨[], rfl, rfl⟩
  | succ depth ih =>
    rw [plain, Option.map_eq_none_iff] at h
    obtain ⟨j, hj, hp⟩ := exists_of_mapM_eq_none h
    obtain ⟨way, hlength, hw⟩ := ih hp
    obtain ⟨i, hi⟩ := List.mem_iff_getElem?.mp hj
    exact ⟨i :: way, congrArg Nat.succ hlength, isSome_follow?_cons.mpr ⟨j, hi, hw⟩⟩

/-- The recursion comes to an end exactly at the depths above the length of the ways. -/
theorem isSome_plain_iff : (plain out depth k).isSome = true ↔
    ∀ way, (follow? out k way).isSome = true → way.length < depth := by
  constructor
  · intro h way hw
    obtain ⟨found, hp⟩ := Option.isSome_iff_exists.mp h
    exact length_lt_of_plain hp hw
  · intro hlt
    by_contra hn
    obtain ⟨way, hlength, hw⟩ := exists_way_of_plain (Option.not_isSome_iff_eq_none.mp hn)
    exact (hlt way hw).ne hlength

/-! Links -/

theorem append_flatMap_perm (hf : List.Forall₂ (fun j found =>
      ∃ rest, j :: rest = found ∧ (found.flatMap out).Perm rest) js founds) :
    (js ++ founds.flatten.flatMap out).Perm founds.flatten := by
  induction hf with
  | nil => exact .refl []
  | @cons j found js founds hj _ ih =>
    obtain ⟨rest, rfl, hp⟩ := hj
    rw [List.flatten_cons, List.flatMap_append, List.cons_append, List.cons_append]
    exact ((List.perm_append_comm_assoc _ _ _).trans (hp.append ih)).cons j

/-- The nodes that the nodes of the recursion are linked to are those that it comes to behind the
first. -/
theorem exists_flatMap_perm (h : plain out depth k = some found) :
    ∃ rest, k :: rest = found ∧ (found.flatMap out).Perm rest := by
  induction depth generalizing k found with
  | zero => cases h
  | succ depth ih =>
    obtain ⟨founds, hf, rfl⟩ := plain_succ_eq_some.mp h
    refine ⟨founds.flatten, rfl, ?_⟩
    rw [List.flatMap_cons]
    exact append_flatMap_perm (hf.imp fun j found hp => ih hp)

/-! Number -/

/-- A way starts at the first node, or as it does among the other nodes. -/
theorem setOf_followFrom?_cons (out : α → List α) (j : α) (js : List α) (n : α) :
    {way | followFrom? out (j :: js) way = some n} =
      List.cons 0 '' {way | follow? out j way = some n} ∪
        List.modifyHead Nat.succ '' {way | followFrom? out js way = some n} := by
  ext way
  constructor
  · intro h
    match way, h with
    | 0 :: way, h => exact .inl ⟨way, h, rfl⟩
    | (i + 1) :: way, h => exact .inr ⟨i :: way, h, rfl⟩
  · rintro (⟨way, h, rfl⟩ | ⟨_ | ⟨i, way⟩, h, rfl⟩)
    · exact h
    · cases h
    · exact h

theorem modifyHead_succ_injective : Function.Injective (List.modifyHead Nat.succ) := by
  rintro (_ | ⟨i, way⟩) (_ | ⟨i', way'⟩) h <;> simp_all

/-- The ways of one or more links from `k` to `n`. -/
def ways (out : α → List α) (k n : α) : Set (List Nat) :=
  {way | way ≠ [] ∧ follow? out k way = some n}

theorem ways_eq (out : α → List α) (k n : α) :
    ways out k n = {way | followFrom? out (out k) way = some n} := by
  ext way
  cases way <;> simp [ways, follow?, followFrom?]

variable [BEq α] [LawfulBEq α]

/-- The way without links leads to its start, and to no other node. -/
theorem encard_setOf_follow?_eq (out : α → List α) (k n : α) :
    {way | follow? out k way = some n}.encard =
      (ways out k n).encard + if k == n then 1 else 0 := by
  by_cases hk : k = n
  · have hset : {way | follow? out k way = some n} = insert [] (ways out k n) := by
      ext way
      cases way <;> simp [ways, follow?, hk]
    have hnil : [] ∉ ways out k n := fun h => h.1 rfl
    rw [hset, Set.encard_insert_of_notMem hnil, if_pos (beq_iff_eq.mpr hk)]
  · have hset : {way | follow? out k way = some n} = ways out k n := by
      ext way
      cases way <;> simp [ways, follow?, hk]
    rw [hset, if_neg fun h => hk (beq_iff_eq.mp h), add_zero]

omit [LawfulBEq α] in
theorem encard_followFrom? (hf : List.Forall₂ (fun j found =>
      {way | follow? out j way = some n}.encard = found.count n) js founds) :
    {way | followFrom? out js way = some n}.encard = founds.flatten.count n := by
  induction hf with
  | nil =>
    have hempty : {way | followFrom? out [] way = some n} = ∅ := by
      ext way
      cases way <;> simp [followFrom?]
    rw [hempty, Set.encard_empty, List.flatten_nil, List.count_nil, Nat.cast_zero]
  | @cons j found js founds hj _ ih =>
    have hdisjoint : Disjoint (List.cons 0 '' {way | follow? out j way = some n})
        (List.modifyHead Nat.succ '' {way | followFrom? out js way = some n}) := by
      rw [Set.disjoint_left]
      rintro _ ⟨way, -, rfl⟩ ⟨_ | ⟨i, way'⟩, -, h⟩ <;> simp at h
    rw [setOf_followFrom?_cons, Set.encard_union_eq hdisjoint,
      List.cons_injective.encard_image, modifyHead_succ_injective.encard_image, hj, ih,
      List.flatten_cons, List.count_append, Nat.cast_add]

/-- The recursion comes to a node as often as there are ways to it. -/
theorem encard_setOf_follow? (h : plain out depth k = some found) (n : α) :
    {way | follow? out k way = some n}.encard = found.count n := by
  induction depth generalizing k found with
  | zero => cases h
  | succ depth ih =>
    obtain ⟨founds, hf, rfl⟩ := plain_succ_eq_some.mp h
    have hways := encard_followFrom? (hf.imp fun j found hp => ih hp)
    rw [encard_setOf_follow?_eq, ways_eq, hways, List.count_cons]
    by_cases hk : k = n <;> simp [hk]

/-- What the nodes of the recursion are linked to has a node as often as there are ways of one or
more links to it. -/
theorem encard_ways (h : plain out depth k = some found) (n : α) :
    (ways out k n).encard = (found.flatMap out).count n := by
  obtain ⟨rest, rfl, hp⟩ := exists_flatMap_perm h
  have hall := encard_setOf_follow? h n
  rw [encard_setOf_follow?_eq, List.count_cons] at hall
  rw [hp.count_eq]
  by_cases hk : k = n <;> simpa [hk] using hall

end Syllogism.Walk
