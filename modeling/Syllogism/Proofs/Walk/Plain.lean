import Mathlib.Data.List.Forall2
import Mathlib.Data.List.Chain
import Mathlib.Data.List.Perm.Subperm
import Syllogism.Proofs.Walk

/-! Recursion along links that takes no account of where it was before. It comes to a node once for
every way there, and to no end where the links lead round a cycle. Of the nodes that it comes to, a
walk has each where it stands first. -/

namespace Syllogism

/-! Answers to several questions -/

section

variable {α β : Type} {f : α → Option β} {l : List α}

theorem mapM_eq_some_iff {r : List β} :
    l.mapM f = some r ↔ List.Forall₂ (fun a b => f a = some b) l r := by
  induction l generalizing r with
  | nil => simp [eq_comm]
  | cons a l ih =>
    simp only [List.mapM_cons, Option.bind_eq_bind, Option.bind_eq_some_iff, Option.pure_def,
      Option.some.injEq, ih, List.forall₂_cons_left_iff]
    constructor
    · rintro ⟨b, hb, bs, hbs, rfl⟩
      exact ⟨b, bs, hb, hbs, rfl⟩
    · rintro ⟨b, bs, hb, hbs, rfl⟩
      exact ⟨b, hb, bs, hbs, rfl⟩

theorem mapM_congr {g : α → Option β} (h : ∀ a ∈ l, f a = g a) : l.mapM f = l.mapM g := by
  induction l with
  | nil => rfl
  | cons a l ih =>
    have hl : l.mapM f = l.mapM g := ih fun b hb => h b (List.mem_cons_of_mem a hb)
    rw [List.mapM_cons, List.mapM_cons, h a List.mem_cons_self, hl]

theorem mapM_map_eq {γ : Type} (f : α → Option β) (g : β → γ) (l : List α) :
    (l.mapM fun a => (f a).map g) = (l.mapM f).map (List.map g) := by
  induction l with
  | nil => rfl
  | cons a l ih =>
    rw [List.mapM_cons, List.mapM_cons, ih]
    cases f a with
    | none => rfl
    | some b => cases l.mapM f <;> rfl

theorem exists_of_mapM_eq_none (h : l.mapM f = none) : ∃ a ∈ l, f a = none := by
  induction l with
  | nil => simp at h
  | cons a l ih =>
    cases ha : f a with
    | none => exact ⟨a, List.mem_cons_self, ha⟩
    | some b =>
      have hl : l.mapM f = none := by
        cases hl : l.mapM f with
        | none => rfl
        | some bs => simp [List.mapM_cons, ha, hl] at h
      obtain ⟨a', ha', hf⟩ := ih hl
      exact ⟨a', List.mem_cons_of_mem a ha', hf⟩

theorem exists_of_mem_forall₂ {R : α → β → Prop} {r : List β} (h : List.Forall₂ R l r) {a : α}
    (ha : a ∈ l) : ∃ b ∈ r, R a b := by
  induction h with
  | nil => simp at ha
  | @cons a' b l r hab _ ih =>
    rcases List.mem_cons.mp ha with rfl | ha
    · exact ⟨b, List.mem_cons_self, hab⟩
    · obtain ⟨b', hb', hab'⟩ := ih ha
      exact ⟨b', List.mem_cons_of_mem b hb', hab'⟩

end

namespace Walk

open Relation

variable {α : Type} {out : α → List α} {depth : Nat} {found : List α} {j k n : α}

/-- The node and all that is behind it, once for every way there, with at most `depth` nodes open
at one time; `none` if that is too few. -/
def plain (out : α → List α) : (depth : Nat) → (k : α) → Option (List α)
  | 0, _ => none
  | depth + 1, k => ((out k).mapM (plain out depth)).map fun found => k :: found.flatten

theorem plain_succ_eq_some :
    plain out (depth + 1) k = some found ↔
      ∃ founds, List.Forall₂ (fun j found => plain out depth j = some found) (out k) founds ∧
        k :: founds.flatten = found := by
  rw [plain, Option.map_eq_some_iff]
  simp only [mapM_eq_some_iff]

/-- With more depth it comes to the same nodes. -/
theorem plain_mono {depth' : Nat} (h : plain out depth k = some found) (hd : depth ≤ depth') :
    plain out depth' k = some found := by
  induction depth generalizing depth' k found with
  | zero => cases h
  | succ depth ih =>
    obtain ⟨depth', rfl⟩ : ∃ d, depth' = d + 1 := ⟨depth' - 1, by omega⟩
    obtain ⟨founds, hf, rfl⟩ := plain_succ_eq_some.mp h
    refine plain_succ_eq_some.mpr ⟨founds, hf.imp ?_, rfl⟩
    intro j found hj
    exact ih hj (by omega)

/-- Only the links of nodes that can be reached count. -/
theorem plain_congr {out' : α → List α}
    (h : ∀ j, ReflTransGen (fun i j => j ∈ out i) k j → out j = out' j) :
    plain out depth k = plain out' depth k := by
  induction depth generalizing k with
  | zero => rfl
  | succ depth ih =>
    have hm : (out k).mapM (plain out depth) = (out k).mapM (plain out' depth) :=
      mapM_congr fun j hj => ih fun i hi => h i (.head hj hi)
    rw [plain, plain, hm, h k .refl]

theorem mem_plain_iff (h : plain out depth k = some found) :
    n ∈ found ↔ ReflTransGen (fun i j => j ∈ out i) k n := by
  induction depth generalizing k found with
  | zero => cases h
  | succ depth ih =>
    obtain ⟨founds, hf, rfl⟩ := plain_succ_eq_some.mp h
    rw [ReflTransGen.cases_head_iff, List.mem_cons, List.mem_flatten, eq_comm]
    refine or_congr_right ⟨?_, ?_⟩
    · rintro ⟨found, hfound, hn⟩
      obtain ⟨j, hj, hw⟩ := exists_of_mem_forall₂ hf.flip hfound
      exact ⟨j, hj, (ih hw).mp hn⟩
    · rintro ⟨j, hj, hn⟩
      obtain ⟨found, hfound, hw⟩ := exists_of_mem_forall₂ hf hj
      exact ⟨found, hfound, (ih hw).mpr hn⟩

/-- What is behind the node are those to which one or more links lead. -/
theorem mem_tail_plain_iff (h : plain out depth k = some found) :
    n ∈ found.tail ↔ TransGen (fun i j => j ∈ out i) k n := by
  cases depth with
  | zero => cases h
  | succ depth =>
    obtain ⟨founds, hf, rfl⟩ := plain_succ_eq_some.mp h
    rw [List.tail_cons, List.mem_flatten, TransGen.head'_iff]
    constructor
    · rintro ⟨found, hfound, hn⟩
      obtain ⟨j, hj, hw⟩ := exists_of_mem_forall₂ hf.flip hfound
      exact ⟨j, hj, (mem_plain_iff hw).mp hn⟩
    · rintro ⟨j, hj, hn⟩
      obtain ⟨found, hfound, hw⟩ := exists_of_mem_forall₂ hf hj
      exact ⟨found, hfound, (mem_plain_iff hw).mpr hn⟩

/-! Cycles -/

/-- There is an end only if no cycle can be reached. -/
theorem not_transGen_of_plain (h : plain out depth k = some found)
    (hj : ReflTransGen (fun i j => j ∈ out i) k j) :
    ¬ TransGen (fun i j => j ∈ out i) j j := by
  intro hc
  induction depth generalizing k found with
  | zero => cases h
  | succ depth ih =>
    -- the way to the cycle, or the cycle itself, starts with a link from the node
    have hs : ∃ n, n ∈ out k ∧ ReflTransGen (fun i j => j ∈ out i) n j := by
      rcases hj.cases_head with rfl | hj
      · exact TransGen.head'_iff.mp hc
      · exact hj
    obtain ⟨n, hl, hn⟩ := hs
    obtain ⟨founds, hf, -⟩ := plain_succ_eq_some.mp h
    obtain ⟨found, -, hw⟩ := exists_of_mem_forall₂ hf hl
    exact ih hw hn

/-- Where the depth is too little, as many links follow one on another. -/
theorem exists_chain_of_plain (h : plain out depth k = none) :
    ∃ path : List α, path.length = depth ∧ (k :: path).IsChain (fun i j => j ∈ out i) := by
  induction depth generalizing k with
  | zero => exact ⟨[], rfl, .singleton k⟩
  | succ depth ih =>
    rw [plain, Option.map_eq_none_iff] at h
    obtain ⟨j, hj, hw⟩ := exists_of_mapM_eq_none h
    obtain ⟨path, hlength, hchain⟩ := ih hw
    exact ⟨j :: path, by rw [List.length_cons, hlength], List.isChain_cons_cons.mpr ⟨hj, hchain⟩⟩

/-- Links that follow one on another come to no node twice, unless they reach a cycle. -/
theorem nodup_of_isChain {path : List α} (h : (k :: path).IsChain fun i j => j ∈ out i)
    (hc : ¬ ∃ j, ReflTransGen (fun i j => j ∈ out i) k j ∧ TransGen (fun i j => j ∈ out i) j j) :
    (k :: path).Nodup := by
  have hpath : (k :: path).Pairwise (TransGen fun i j => j ∈ out i) :=
    (h.imp fun _ _ hl => TransGen.single hl).pairwise
  have hreach : ∀ j ∈ k :: path, ReflTransGen (fun i j => j ∈ out i) k j := by
    intro j hj
    rcases List.mem_cons.mp hj with rfl | hj
    · exact .refl
    · exact ((List.pairwise_cons.mp hpath).1 j hj).to_reflTransGen
  refine hpath.imp_of_mem ?_
  rintro i j hi - hij rfl
  exact hc ⟨i, hreach i hi, hij⟩

/-- Where no cycle can be reached, more depth than the longest way has links is enough. -/
theorem exists_plain (hc : ¬ ∃ j, ReflTransGen (fun i j => j ∈ out i) k j ∧
      TransGen (fun i j => j ∈ out i) j j)
    (hd : ∀ path : List α, (k :: path).IsChain (fun i j => j ∈ out i) → (k :: path).Nodup →
      path.length < depth) :
    ∃ found, plain out depth k = some found := by
  rw [← Option.ne_none_iff_exists']
  intro h
  obtain ⟨path, hlength, hchain⟩ := exists_chain_of_plain h
  have := hd path hchain (nodup_of_isChain hchain hc)
  omega

/-- Where ways without repetition are bounded, only a cycle keeps the recursion from its end. -/
theorem plain_eq_none_iff
    (hd : ∀ path : List α, (k :: path).IsChain (fun i j => j ∈ out i) → (k :: path).Nodup →
      path.length < depth) :
    (∀ depth, plain out depth k = none) ↔
      ∃ j, ReflTransGen (fun i j => j ∈ out i) k j ∧ TransGen (fun i j => j ∈ out i) j j := by
  constructor
  · intro h
    by_contra hc
    obtain ⟨found, hw⟩ := exists_plain hc hd
    rw [h] at hw
    cases hw
  · rintro ⟨j, hj, hc⟩ depth
    rw [Option.eq_none_iff_forall_ne_some]
    intro found hw
    exact not_transGen_of_plain hw hj hc

/-- All nodes of a way but the last have a link. -/
theorem exists_out_of_isChain {path : List α} (h : path.IsChain fun i j => j ∈ out i)
    (hn : n ∈ path.dropLast) : ∃ j, j ∈ out n := by
  induction path with
  | nil => cases hn
  | cons i path ih =>
    cases path with
    | nil => cases hn
    | cons j path =>
      rw [List.isChain_cons_cons] at h
      rw [List.dropLast_cons_cons] at hn
      rcases List.mem_cons.mp hn with rfl | hn
      · exact ⟨j, h.1⟩
      · exact ih h.2 hn

/-- Links lead to all nodes of a way but the first. -/
theorem exists_in_of_isChain {path : List α} (h : (k :: path).IsChain fun i j => j ∈ out i)
    (hn : n ∈ path) : ∃ i, n ∈ out i := by
  induction path generalizing k with
  | nil => cases hn
  | cons j path ih =>
    rw [List.isChain_cons_cons] at h
    rcases List.mem_cons.mp hn with rfl | hn
    · exact ⟨k, h.1⟩
    · exact ih h.2 hn

/-! What is repeated -/

variable [BEq α] [LawfulBEq α] {visited : List α}

/-- The nodes of a list that were not visited, each where it stands first. -/
def fresh (visited l : List α) : List α := (l.filter (· ∉ visited)).eraseDups

theorem mem_fresh_iff {l : List α} : n ∈ fresh visited l ↔ n ∈ l ∧ n ∉ visited := by
  simp [fresh]

theorem fresh_nil (l : List α) : fresh [] l = l.eraseDups := by
  simp [fresh]

theorem fresh_eq_nil {l : List α} (h : ∀ n ∈ l, n ∈ visited) : fresh visited l = [] := by
  rw [List.eq_nil_iff_forall_not_mem]
  intro n hn
  exact (mem_fresh_iff.mp hn).2 (h n (mem_fresh_iff.mp hn).1)

theorem fresh_cons (hk : k ∉ visited) (l : List α) :
    fresh visited (k :: l) = k :: fresh (k :: visited) l := by
  have hp : ∀ n, (!n == k && decide (n ∉ visited)) = decide (n ∉ k :: visited) := by
    intro n
    by_cases h : n = k <;> simp [h]
  rw [fresh, List.filter_cons_of_pos (by simpa using hk), List.eraseDups_cons, List.filter_filter]
  simp only [hp, fresh]

theorem fresh_append (visited l m : List α) :
    fresh visited (l ++ m) = fresh visited l ++ fresh (fresh visited l ++ visited) m := by
  have hp : ∀ n ∈ m, (!(l.filter (· ∉ visited)).elem n && decide (n ∉ visited)) =
      decide (n ∉ fresh visited l ++ visited) := by
    intro n hn
    by_cases h : n ∈ visited <;> simp [h, fresh]
  rw [fresh, List.filter_append, List.eraseDups_append, ← fresh, List.removeAll, List.filter_filter,
    List.filter_congr hp]
  rfl

variable [DecidableEq α] {links : Links α}

/-- Whatever lies behind a visited node that `k` leads to was visited. -/
def Settled (links : Links α) (visited : List α) (k : α) : Prop :=
  ∀ j ∈ visited, ReflTransGen (Link links) k j → ∀ n, TransGen (Link links) j n → n ∈ visited

/-- After a walk from the first of some nodes the others are settled, if they were before. -/
theorem Settled.after (h : Settled links visited n)
    (hw : plain (next links) depth k = some found) :
    Settled links (fresh visited found ++ visited) n := by
  intro j hj hnj i hi
  rw [List.mem_append, mem_fresh_iff]
  by_cases hv : i ∈ visited
  · exact .inr hv
  · rcases List.mem_append.mp hj with hj | hj
    · have hkj := (mem_plain_iff hw).mp (mem_fresh_iff.mp hj).1
      exact .inl ⟨(mem_plain_iff hw).mpr (hkj.trans hi.to_reflTransGen), hv⟩
    · exact absurd (h j hj hnj i hi) hv

theorem order_eq_fresh_of_forall {nodes : List α} {founds : List (List α)}
    (hsingle : ∀ k found visited, plain (next links) depth k = some found →
      Settled links visited k → order links visited [k] = fresh visited found)
    (hf : List.Forall₂ (fun k found => plain (next links) depth k = some found) nodes founds)
    (hs : ∀ k ∈ nodes, Settled links visited k) :
    order links visited nodes = fresh visited founds.flatten := by
  induction hf generalizing visited with
  | nil => simp [order, fresh]
  | @cons k found nodes founds hw _ ih =>
    have hk := hsingle k found visited hw (hs k List.mem_cons_self)
    have hr : ∀ n ∈ nodes, Settled links (fresh visited found ++ visited) n :=
      fun n hn => (hs n (List.mem_cons_of_mem k hn)).after hw
    rw [← List.singleton_append, order_append, hk, ih hr, List.flatten_cons, fresh_append]

/-- Of the nodes that the recursion comes to, a walk has those that it did not visit before, each
where it stands first. -/
theorem order_eq_fresh (hw : plain (next links) depth k = some found)
    (hs : Settled links visited k) : order links visited [k] = fresh visited found := by
  induction depth generalizing k found visited with
  | zero => cases hw
  | succ depth ih =>
    by_cases hv : k ∈ visited
    · have hn : ∀ n ∈ found, n ∈ visited := by
        intro n hn
        rcases reflTransGen_iff_eq_or_transGen.mp ((mem_plain_iff hw).mp hn) with rfl | hn
        · exact hv
        · exact hs k hv .refl n hn
      rw [order, if_pos hv, order, fresh_eq_nil hn]
    · obtain ⟨founds, hf, rfl⟩ := plain_succ_eq_some.mp hw
      have hsk : ∀ j ∈ next links k, Settled links (k :: visited) j := by
        intro j hj i hi hji n hn
        rcases List.mem_cons.mp hi with rfl | hi
        · exact absurd (TransGen.head' hj hji) (not_transGen_of_plain hw .refl)
        · exact List.mem_cons_of_mem k (hs i hi (.head hj hji) n hn)
      rw [order, if_neg hv, List.append_nil,
        order_eq_fresh_of_forall (fun _ _ _ hw hs => ih hw hs) hf hsk, fresh_cons hv]

/-- A walk from a node has each node of the recursion where it stands first. -/
theorem order_eq_eraseDups (hw : plain (next links) depth k = some found) :
    order links [] [k] = found.eraseDups := by
  have hs : Settled links [] k := fun j hj => absurd hj List.not_mem_nil
  rw [order_eq_fresh hw hs, fresh_nil]

/-- So has a walk that starts with what the node is linked to, without the node. -/
theorem order_next_eq_eraseDups (hw : plain (next links) depth k = some found) :
    order links [] (next links k) = found.tail.eraseDups := by
  cases depth with
  | zero => cases hw
  | succ depth =>
    obtain ⟨founds, hf, rfl⟩ := plain_succ_eq_some.mp hw
    have hs : ∀ j ∈ next links k, Settled links [] j :=
      fun j _ i hi => absurd hi List.not_mem_nil
    rw [order_eq_fresh_of_forall (fun _ _ _ => order_eq_fresh) hf hs, fresh_nil, List.tail_cons]

end Walk

end Syllogism
