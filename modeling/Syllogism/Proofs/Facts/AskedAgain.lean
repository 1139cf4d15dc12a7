import Syllogism.Lexicon.Basic
import Syllogism.Proofs.Facts.Query
import Syllogism.Proofs.Walk.Plain

/-! Who has an attribute, answered by plain recursion. Each subject that is found is asked for again
as if it were a phrase, so its key is taken once more. Where subjects are their own keys, that is
the walk back with its repetitions. -/

namespace Syllogism.Facts

open Relation

variable {key : Text → Text} {facts : Facts} {attr j k n : Text} {depth : Nat} {found : List Text}

/-- The question for the phrase `a` finds the subject `k` at once. -/
def Asks (key : Text → Text) (facts : Facts) (a k : Text) : Prop := Leads key facts k (key a)

/-- The recursion goes from a phrase to the subjects that have an attribute with its key. -/
theorem plain_holders (key : Text → Text) (facts : Facts) (depth : Nat) (attr : Text) :
    Walk.plain (fun a => facts.holders key (key a)) depth attr =
      (facts.whoIsWithin key depth attr).map (attr :: ·) := by
  induction depth generalizing attr with
  | zero => rfl
  | succ depth ih =>
    have hp : Walk.plain (fun a => facts.holders key (key a)) depth =
        fun k => (facts.whoIsWithin key depth k).map (k :: ·) := funext ih
    rw [Walk.plain, hp, whoIsWithin, Option.map_map]
    rfl

theorem whoIsWithin_eq (key : Text → Text) (facts : Facts) (depth : Nat) (attr : Text) :
    facts.whoIsWithin key depth attr =
      (Walk.plain (fun a => facts.holders key (key a)) depth attr).map List.tail := by
  have ht : List.tail ∘ (attr :: ·) = id := rfl
  rw [plain_holders, Option.map_map, ht, Option.map_id, id]

theorem mem_holders_eq_asks :
    (fun a k => k ∈ facts.holders key (key a)) = Asks key facts := by
  funext a k
  exact propext mem_holders_iff

theorem mem_keys_of_asks (h : TransGen (Asks key facts) attr k) : k ∈ facts.keys := by
  obtain ⟨a, -, hk⟩ := TransGen.tail'_iff.mp h
  exact mem_keys_of_leads hk

/-- The recursion finds the subjects that one or more questions come to, one after the other. -/
theorem mem_whoIsWithin_iff (h : facts.whoIsWithin key depth attr = some found) :
    k ∈ found ↔ TransGen (Asks key facts) attr k := by
  have hp := plain_holders key facts depth attr
  rw [h, Option.map_some] at hp
  rw [← mem_holders_eq_asks]
  exact Walk.mem_tail_plain_iff hp

/-- A chain of questions has no more than all subjects in it, if it comes to none twice. -/
theorem length_lt_of_isChain {out : Text → List Text} {path : List Text}
    (hout : ∀ a, ∀ k ∈ out a, k ∈ facts.keys) (h : (attr :: path).IsChain fun a k => k ∈ out a)
    (hn : (attr :: path).Nodup) : path.length < facts.size + 1 := by
  have hkeys : path ⊆ facts.keys := by
    intro k hk
    obtain ⟨a, ha⟩ := Walk.exists_in_of_isChain h hk
    exact hout a k ha
  have hle := ((List.nodup_cons.mp hn).2.subperm hkeys).length_le
  have hsize : facts.keys.length = facts.size := List.length_map _
  omega

/-- The recursion comes to no end exactly if the questions come round. -/
theorem whoIsWithin_eq_none_iff :
    (∀ depth, facts.whoIsWithin key depth attr = none) ↔
      ∃ k, ReflTransGen (Asks key facts) attr k ∧ TransGen (Asks key facts) k k := by
  have hout : ∀ a, ∀ k ∈ facts.holders key (key a), k ∈ facts.keys :=
    fun a k hk => mem_keys_of_leads (mem_holders_iff.mp hk)
  have hn := Walk.plain_eq_none_iff (k := attr) fun path => length_lt_of_isChain hout
  simp only [whoIsWithin_eq, Option.map_eq_none_iff, hn, mem_holders_eq_asks]

/-! Subjects that are their own keys -/

/-- If the subjects that lead to the attribute are their own keys, the recursion follows the index of
holders. -/
theorem whoIsWithin_eq_of_own_keys
    (hkeys : ∀ k, TransGen (Leads key facts) k (key attr) → key k = k) (depth : Nat) :
    facts.whoIsWithin key depth attr =
      (Walk.plain (Walk.next (backward key facts)) depth (key attr)).map List.tail := by
  rw [whoIsWithin_eq]
  cases depth with
  | zero => rfl
  | succ depth =>
    have hj : ∀ j ∈ facts.holders key (key attr),
        Walk.plain (fun a => facts.holders key (key a)) depth j =
          Walk.plain (Walk.next (backward key facts)) depth j := by
      intro j hj
      refine (Walk.plain_congr fun i hi => ?_).symm
      have hij : ReflTransGen (Leads key facts) i j := by
        rw [← reflTransGen_swap, ← link_backward_eq]
        exact hi
      have hi : key i = i := hkeys i (.tail' hij (mem_holders_iff.mp hj))
      rw [next_backward, hi]
    rw [Walk.plain, Walk.plain, next_backward, mapM_congr hj, Option.map_map, Option.map_map]
    rfl

theorem transGen_asks_iff (hkeys : ∀ k, TransGen (Leads key facts) k (key attr) → key k = k) :
    TransGen (Asks key facts) attr k ↔ TransGen (Leads key facts) k (key attr) := by
  constructor
  · intro h
    induction h with
    | single hk => exact .single hk
    | tail _ hk ih =>
      rw [Asks, hkeys _ ih] at hk
      exact .head hk ih
  · intro h
    induction h using TransGen.head_induction_on with
    | single hk => exact .single hk
    | head hk hj ih =>
      refine .tail ih ?_
      rw [Asks, hkeys _ hj]
      exact hk

/-- From the subjects that the recursion finds the links lead to the attribute. -/
theorem transGen_of_mem_whoIsWithin (hkeys : ∀ j ∈ facts.keys, key j = j)
    (h : facts.whoIsWithin key depth attr = some found) (hk : k ∈ found) :
    TransGen (Leads key facts) k (key attr) := by
  have hown : ∀ j, TransGen (Leads key facts) j (key attr) → key j = j :=
    fun j hj => hkeys j (mem_keys_of_transGen hj)
  exact (transGen_asks_iff hown).mp ((mem_whoIsWithin_iff h).mp hk)

/-- Links back along which no subject comes twice are no more than there are subjects. -/
theorem length_lt_of_isChain_backward {path : List Text}
    (h : (n :: path).IsChain fun i j => j ∈ Walk.next (backward key facts) i)
    (hn : (n :: path).Nodup) : path.length < facts.size + 1 :=
  length_lt_of_isChain (fun _ _ hk => mem_keys_of_leads (link_backward.mp hk)) h hn

theorem exists_cycle_backward_iff :
    (∃ k, ReflTransGen (Walk.Link (backward key facts)) n k ∧
      TransGen (Walk.Link (backward key facts)) k k) ↔
    ∃ k, ReflTransGen (Leads key facts) k n ∧ TransGen (Leads key facts) k k := by
  simp only [link_backward_eq, reflTransGen_swap, transGen_swap]

/-- The walk back gives every subject of the answer where it stands first. -/
theorem whoIs_eq_eraseDups (hkeys : ∀ k, TransGen (Leads key facts) k (key attr) → key k = k)
    (h : facts.whoIsWithin key depth attr = some found) :
    facts.whoIs key attr = found.eraseDups := by
  rw [whoIsWithin_eq_of_own_keys hkeys, Option.map_eq_some_iff] at h
  obtain ⟨nodes, hw, rfl⟩ := h
  exact Walk.order_next_eq_eraseDups hw

/-- More depth than there are subjects is enough, unless a cycle leads to the attribute. -/
theorem exists_whoIsWithin (hkeys : ∀ k, TransGen (Leads key facts) k (key attr) → key k = k)
    (hc : ¬ ∃ k, ReflTransGen (Leads key facts) k (key attr) ∧ TransGen (Leads key facts) k k) :
    ∃ found, ∀ depth, facts.size < depth → facts.whoIsWithin key depth attr = some found := by
  obtain ⟨nodes, hw⟩ := Walk.exists_plain (mt exists_cycle_backward_iff.mp hc)
    fun path => length_lt_of_isChain_backward
  refine ⟨nodes.tail, fun depth hd => ?_⟩
  rw [whoIsWithin_eq_of_own_keys hkeys, Walk.plain_mono hw hd, Option.map_some]

/-- If each subject is its own key, the plain recursion comes to no end at any depth exactly if a
cycle leads to the attribute. Otherwise it ends with an answer of which the walk gives every subject
where it stands first. -/
theorem whoIsWithin_exact (key : Text → Text) (facts : Facts) (attr : Text)
    (hkeys : ∀ k ∈ facts.keys, key k = k) :
    ((∀ depth, facts.whoIsWithin key depth attr = none) ↔
      ∃ k, ReflTransGen (Leads key facts) k (key attr) ∧ TransGen (Leads key facts) k k) ∧
    ((¬ ∃ k, ReflTransGen (Leads key facts) k (key attr) ∧ TransGen (Leads key facts) k k) →
      ∃ found, (∀ depth, facts.size < depth →
          facts.whoIsWithin key depth attr = some found) ∧
        facts.whoIs? key .guarded attr = some found.eraseDups) := by
  have hown : ∀ k, TransGen (Leads key facts) k (key attr) → key k = k :=
    fun k hk => hkeys k (mem_keys_of_transGen hk)
  constructor
  · have hn := Walk.plain_eq_none_iff fun path =>
      @length_lt_of_isChain_backward key facts (key attr) path
    simp only [whoIsWithin_eq_of_own_keys hown, Option.map_eq_none_iff, hn]
    exact exists_cycle_backward_iff
  · intro hc
    obtain ⟨found, hw⟩ := exists_whoIsWithin hown hc
    refine ⟨found, hw, ?_⟩
    rw [whoIs?, whoIs_eq_eraseDups hown (hw _ (Nat.lt_succ_self _))]

/-- Two ways lead back to the last subject, so the recursion has it twice, and what is behind it. -/
theorem whoIsWithin_exact_two_ways :
    let facts : Facts :=
      ⟨[("E", ["d"]), ("B", ["a"]), ("C", ["A"]), ("D", ["b", "c", "x"])], by decide⟩
    (∀ k ∈ facts.keys, plainKey k = k) ∧
    (¬ ∃ k, ReflTransGen (Leads plainKey facts) k (plainKey "a") ∧
      TransGen (Leads plainKey facts) k k) ∧
    facts.whoIsWithin plainKey 5 "a" = some [Text.of "B", "D", "E", "C", "D", "E"] ∧
    facts.whoIs? plainKey .guarded "a" = some [Text.of "B", "D", "E", "C"] := by
  intro facts
  have hkeys : ∀ k ∈ facts.keys, plainKey k = k := by decide +kernel
  have hw : facts.whoIsWithin plainKey 5 "a" = some [Text.of "B", "D", "E", "C", "D", "E"] := by
    decide +kernel
  have he := whoIsWithin_exact plainKey facts "a" hkeys
  have hc : ¬ ∃ k, ReflTransGen (Leads plainKey facts) k (plainKey "a") ∧
      TransGen (Leads plainKey facts) k k := by
    intro hc
    have hn := he.1.mpr hc 5
    rw [hw] at hn
    cases hn
  obtain ⟨found, hf, hg⟩ := he.2 hc
  have hfound : found = ["B", "D", "E", "C", "D", "E"] :=
    Option.some.inj ((hf 5 (by decide)).symm.trans hw)
  refine ⟨hkeys, hc, hw, ?_⟩
  rw [hg, hfound]
  decide +kernel

end Syllogism.Facts
