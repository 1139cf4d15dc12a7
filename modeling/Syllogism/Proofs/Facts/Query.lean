import Syllogism.Facts.Unguarded
import Syllogism.Proofs.OrderedMap
import Syllogism.Proofs.Walk

/-! Both questions are answered exactly: with what the links lead to from the subject, and with the
subjects from which they lead to the attribute. -/

namespace Syllogism.Facts

open Relation

variable {key : Text → Text} {facts : Facts} {j k n : Text}

/-- An attribute of `j` has the key `k`. -/
def Leads (key : Text → Text) (facts : Facts) (j k : Text) : Prop :=
  ∃ a ∈ facts.attributes j, key a = k

theorem mem_attributes_iff {a : Text} :
    a ∈ facts.attributes k ↔ ∃ attributes, (k, attributes) ∈ facts.entries ∧ a ∈ attributes := by
  rw [attributes]
  cases h : facts.get? k with
  | none =>
    constructor
    · simp
    · rintro ⟨attributes, hm, -⟩
      rw [OrderedMap.get?_eq_some_iff.mpr hm] at h
      cases h
  | some attributes =>
    constructor
    · exact fun ha => ⟨attributes, OrderedMap.get?_eq_some_iff.mp h, ha⟩
    · rintro ⟨attributes', hm, ha⟩
      rw [OrderedMap.get?_eq_some_iff.mpr hm] at h
      cases h
      exact ha

theorem mem_keys_of_mem_attributes {a : Text} (h : a ∈ facts.attributes k) : k ∈ facts.keys := by
  obtain ⟨attributes, hm, -⟩ := mem_attributes_iff.mp h
  exact List.mem_map_of_mem hm

theorem mem_keys_of_leads (h : Leads key facts j k) : j ∈ facts.keys := by
  obtain ⟨a, ha, -⟩ := h
  exact mem_keys_of_mem_attributes ha

theorem mem_keys_of_transGen (h : TransGen (Leads key facts) j k) : j ∈ facts.keys := by
  obtain ⟨i, hj, -⟩ := TransGen.head'_iff.mp h
  exact mem_keys_of_leads hj

/-! Forward -/

theorem next_forward (key : Text → Text) (facts : Facts) (k : Text) :
    Walk.next (forward key facts) k = (facts.attributes k).map key := by
  rw [Walk.next, forward, OrderedMap.get?_mapValues, attributes]
  cases facts.get? k <;> rfl

theorem link_forward : Walk.Link (forward key facts) = Leads key facts := by
  funext j k
  rw [Walk.Link, next_forward, List.mem_map]
  rfl

theorem firstMentions_sublist (key : Text → Text) (seen phrases : List Text) :
    (firstMentions key seen phrases).Sublist phrases := by
  fun_induction firstMentions key seen phrases with
  | case1 => exact .slnil
  | case2 seen a rest h ih => exact ih.cons a
  | case3 seen a rest h ih => exact ih.cons_cons a

theorem mem_map_firstMentions {seen phrases : List Text} :
    n ∈ (firstMentions key seen phrases).map key ↔ n ∈ phrases.map key ∧ n ∉ seen := by
  fun_induction firstMentions key seen phrases with
  | case1 => simp
  | case2 seen a rest h ih =>
    rw [ih, List.map_cons, List.mem_cons]
    constructor
    · exact fun ⟨hm, hn⟩ => ⟨.inr hm, hn⟩
    · rintro ⟨rfl | hm, hn⟩
      · exact absurd h hn
      · exact ⟨hm, hn⟩
  | case3 seen a rest h ih =>
    rw [List.map_cons, List.mem_cons, ih, List.map_cons, List.mem_cons, List.mem_cons]
    constructor
    · rintro (rfl | ⟨hm, hn⟩)
      · exact ⟨.inl rfl, h⟩
      · exact ⟨.inr hm, fun hs => hn (.inr hs)⟩
    · rintro ⟨rfl | hm, hn⟩
      · exact .inl rfl
      · by_cases he : n = key a
        · exact .inl he
        · exact .inr ⟨hm, fun hs => hs.elim he hn⟩

theorem nodup_map_firstMentions (key : Text → Text) (seen phrases : List Text) :
    ((firstMentions key seen phrases).map key).Nodup := by
  fun_induction firstMentions key seen phrases with
  | case1 => exact List.nodup_nil
  | case2 seen a rest h ih => exact ih
  | case3 seen a rest h ih =>
    rw [List.map_cons, List.nodup_cons]
    refine ⟨fun hm => ?_, ih⟩
    exact (mem_map_firstMentions.mp hm).2 List.mem_cons_self

/-- Of the keys that were seen only the membership counts. -/
theorem firstMentions_congr {seen seen' : List Text} (phrases : List Text)
    (h : ∀ n, n ∈ seen ↔ n ∈ seen') :
    firstMentions key seen phrases = firstMentions key seen' phrases := by
  induction phrases generalizing seen seen' with
  | nil => rfl
  | cons a rest ih =>
    have hc : ∀ n, n ∈ key a :: seen ↔ n ∈ key a :: seen' := by
      intro n
      rw [List.mem_cons, List.mem_cons, h]
    simp only [firstMentions, h, ih h, ih hc]

theorem firstMentions_append (key : Text → Text) (seen before phrases : List Text) :
    firstMentions key seen (before ++ phrases) = firstMentions key seen before ++
      firstMentions key ((firstMentions key seen before).map key ++ seen) phrases := by
  fun_induction firstMentions key seen before with
  | case1 => rfl
  | case2 seen a rest h ih => rw [List.cons_append, firstMentions, if_pos h, ih]
  | case3 seen a rest h ih =>
    rw [List.cons_append, firstMentions, if_neg h, ih, List.cons_append]
    refine congrArg (fun found => a :: (firstMentions key (key a :: seen) rest ++ found)) ?_
    refine firstMentions_congr phrases fun n => ?_
    exact List.perm_middle.mem_iff

/-- What a walk from a subject reports at the node `k`: the attributes whose keys were not reported
before. -/
def reportAttributes (key : Text → Text) (facts : Facts) (found : List Text) (k : Text) :
    List Text :=
  found ++ firstMentions key (found.map key) (facts.attributes k)

theorem foldl_reportAttributes (key : Text → Text) (facts : Facts) (before nodes : List Text) :
    nodes.foldl (reportAttributes key facts) (firstMentions key [] before) =
      firstMentions key [] (before ++ nodes.flatMap facts.attributes) := by
  induction nodes generalizing before with
  | nil => rw [List.foldl_nil, List.flatMap_nil, List.append_nil]
  | cons k nodes ih =>
    have hk : reportAttributes key facts (firstMentions key [] before) k =
        firstMentions key [] (before ++ facts.attributes k) := by
      rw [firstMentions_append, List.append_nil, reportAttributes]
    rw [List.foldl_cons, hk, ih, List.flatMap_cons, List.append_assoc]

/-- The loop for a subject stops with the answer. -/
theorem turn_whatIs (key : Text → Text) (facts : Facts) (subject : Text) :
    ∃ visited, (Walk.Loop.turn (forward key facts) (reportAttributes key facts))^[
        Walk.pending (forward key facts) [] + 1] ⟨[key subject], [], []⟩ =
      ⟨[], visited, facts.whatIs key subject⟩ := by
  obtain ⟨visited, h⟩ := Walk.Loop.turn_iterate (forward key facts) (reportAttributes key facts)
    ⟨[key subject], [], []⟩ (Nat.le_refl _)
  refine ⟨visited, h.trans ?_⟩
  exact congrArg (Walk.Loop.mk [] visited) (foldl_reportAttributes key facts [] _)

theorem mem_order_forward {subject : Text} :
    k ∈ Walk.order (forward key facts) [] [key subject] ↔
      ReflTransGen (Leads key facts) (key subject) k := by
  simp [Walk.mem_order_iff, link_forward]

theorem transGen_leads_iff : TransGen (Leads key facts) j k ↔
    k ∈ Walk.order (forward key facts) [] (Walk.next (forward key facts) j) := by
  rw [Walk.mem_order_iff, TransGen.head'_iff, ← link_forward]
  rfl

instance (key : Text → Text) (facts : Facts) (j k : Text) :
    Decidable (TransGen (Leads key facts) j k) :=
  decidable_of_iff ((Walk.order (forward key facts) [] (Walk.next (forward key facts) j)).contains k)
    (List.contains_iff_mem.trans transGen_leads_iff.symm)

theorem exists_cycle_iff :
    (∃ k, TransGen (Leads key facts) k k) ↔ ∃ k ∈ facts.keys, TransGen (Leads key facts) k k :=
  ⟨fun ⟨k, hk⟩ => ⟨k, mem_keys_of_transGen hk, hk⟩, fun ⟨k, _, hk⟩ => ⟨k, hk⟩⟩

instance (key : Text → Text) (facts : Facts) : Decidable (∃ k, TransGen (Leads key facts) k k) :=
  decidable_of_iff _ exists_cycle_iff.symm

theorem mem_map_whatIs {subject : Text} :
    n ∈ (facts.whatIs key subject).map key ↔ TransGen (Leads key facts) (key subject) n := by
  rw [whatIs, mem_map_firstMentions, TransGen.tail'_iff]
  constructor
  · rintro ⟨hm, -⟩
    obtain ⟨a, ha, rfl⟩ := List.mem_map.mp hm
    obtain ⟨k, hk, ha⟩ := List.mem_flatMap.mp ha
    exact ⟨k, mem_order_forward.mp hk, a, ha, rfl⟩
  · rintro ⟨k, hk, a, ha, rfl⟩
    have hm := List.mem_flatMap.mpr ⟨k, mem_order_forward.mpr hk, ha⟩
    exact ⟨List.mem_map_of_mem hm, List.not_mem_nil⟩

/-- Each answer stands among the attributes of a node on the way. -/
theorem mem_whatIs {subject a : Text} (ha : a ∈ facts.whatIs key subject) :
    ∃ k, ReflTransGen (Leads key facts) (key subject) k ∧ a ∈ facts.attributes k := by
  have hm := (firstMentions_sublist key [] _).subset ha
  obtain ⟨k, hk, ha⟩ := List.mem_flatMap.mp hm
  exact ⟨k, mem_order_forward.mp hk, ha⟩

/-- A question for a subject ends, after at most one turn of its loop for each link and one for the
subject. The answer has a node once, if one or more links lead to it from the subject: the subject
itself too, if they lead back to it. -/
theorem whatIs_exact (key : Text → Text) (facts : Facts) (subject : Text) :
    ∃ found visited, facts.whatIs? key .guarded subject = some found ∧
      (Walk.Loop.turn (forward key facts) (reportAttributes key facts))^[
        Walk.pending (forward key facts) [] + 1] ⟨[key subject], [], []⟩ = ⟨[], visited, found⟩ ∧
      (found.map key).Nodup ∧
      (∀ n, n ∈ found.map key ↔ TransGen (Leads key facts) (key subject) n) ∧
      ∀ a ∈ found, ∃ k, ReflTransGen (Leads key facts) (key subject) k ∧
        a ∈ facts.attributes k := by
  obtain ⟨visited, hv⟩ := turn_whatIs key facts subject
  refine ⟨facts.whatIs key subject, visited, rfl, hv, ?_, ?_, ?_⟩
  · exact nodup_map_firstMentions key [] _
  · exact fun n => mem_map_whatIs
  · exact fun a ha => mem_whatIs ha

/-! Backward -/

theorem next_addHolder (index : Links Text) (node holder n : Text) :
    Walk.next (addHolder index node holder) n =
      if n = node ∧ holder ∉ Walk.next index n then Walk.next index n ++ [holder]
      else Walk.next index n := by
  by_cases hh : holder ∈ Walk.next index node
  · have hn : ¬ (n = node ∧ holder ∉ Walk.next index n) := fun ⟨he, hm⟩ => hm (he ▸ hh)
    rw [addHolder, if_pos hh, if_neg hn]
  · by_cases he : n = node
    · subst he
      rw [addHolder, if_neg hh, if_pos ⟨rfl, hh⟩, Walk.next, OrderedMap.get?_put, if_pos rfl,
        Option.getD_some]
    · rw [addHolder, if_neg hh, if_neg fun h => he h.1, Walk.next, OrderedMap.get?_put,
        if_neg he, Walk.next]

/-- The attributes of one subject put it behind the other holders of their nodes, once. -/
theorem next_foldl_attributes (index : Links Text) (attributes : List Text) (k n : Text) :
    Walk.next ((attributes.map fun a => (k, a)).foldl
        (fun index p => addHolder index (key p.2) p.1) index) n =
      if (attributes.any fun a => key a == n) ∧ k ∉ Walk.next index n
      then Walk.next index n ++ [k] else Walk.next index n := by
  induction attributes generalizing index with
  | nil => simp
  | cons a attributes ih =>
    simp only [List.map_cons, List.foldl_cons, ih, next_addHolder, List.any_cons, Bool.or_eq_true,
      beq_iff_eq]
    by_cases hk : k ∈ Walk.next index n
    · simp [hk]
    · by_cases ha : key a = n
      · simp [hk, ha]
      · have ha' : ¬ n = key a := fun h => ha h.symm
        simp [hk, ha, ha']

theorem next_foldl_entries (index : Links Text) (entries : List (Text × List Text)) (n : Text)
    (hd : (entries.map Prod.fst).Nodup)
    (hi : ∀ k ∈ entries.map Prod.fst, k ∉ Walk.next index n) :
    Walk.next ((entries.flatMap fun e => e.2.map fun a => (e.1, a)).foldl
        (fun index p => addHolder index (key p.2) p.1) index) n =
      Walk.next index n ++
        (entries.filter fun e => e.2.any fun a => key a == n).map Prod.fst := by
  induction entries generalizing index with
  | nil => simp
  | cons e entries ih =>
    rw [List.map_cons, List.nodup_cons] at hd
    have he : e.1 ∉ Walk.next index n := hi e.1 List.mem_cons_self
    have hne : ∀ k ∈ entries.map Prod.fst, k ≠ e.1 := fun k hk h => hd.1 (h ▸ hk)
    rw [List.flatMap_cons, List.foldl_append, ih _ hd.2, next_foldl_attributes]
    · by_cases ha : (e.2.any fun a => key a == n) = true
      · simp [ha, he]
      · simp [ha]
    · intro k hk
      have hk' : k ∉ Walk.next index n := hi k (List.mem_cons_of_mem _ hk)
      rw [next_foldl_attributes]
      split
      · simp [hk', hne k hk]
      · exact hk'

/-- The index has under each node the subjects with an attribute of this key, in their order. -/
theorem next_backward (key : Text → Text) (facts : Facts) (n : Text) :
    Walk.next (backward key facts) n = facts.holders key n := by
  rw [backward, pairs, next_foldl_entries OrderedMap.empty facts.entries n facts.nodup]
  · rfl
  · exact fun _ _ => List.not_mem_nil

theorem mem_holders_iff : k ∈ facts.holders key n ↔ Leads key facts k n := by
  simp only [holders, List.mem_map, List.mem_filter, List.any_eq_true, beq_iff_eq, Leads,
    mem_attributes_iff]
  constructor
  · rintro ⟨e, ⟨he, a, ha, hn⟩, rfl⟩
    exact ⟨a, ⟨e.2, he, ha⟩, hn⟩
  · rintro ⟨a, ⟨attributes, he, ha⟩, hn⟩
    exact ⟨(k, attributes), ⟨he, a, ha, hn⟩, rfl⟩

theorem link_backward : Walk.Link (backward key facts) n k ↔ Leads key facts k n := by
  rw [Walk.Link, next_backward, mem_holders_iff]

theorem link_backward_eq : Walk.Link (backward key facts) = Function.swap (Leads key facts) := by
  funext n k
  exact propext link_backward

theorem mem_whoIs {attr : Text} :
    k ∈ facts.whoIs key attr ↔ TransGen (Leads key facts) k (key attr) := by
  rw [whoIs, Walk.mem_order_iff, ← transGen_swap, TransGen.head'_iff, ← link_backward_eq]
  rfl

theorem nodup_whoIs (key : Text → Text) (facts : Facts) (attr : Text) :
    (facts.whoIs key attr).Nodup :=
  Walk.nodup_order _ _ _

/-- What a walk to an attribute reports at a node: the node. -/
def reportNode (found : List Text) (k : Text) : List Text := found ++ [k]

theorem foldl_reportNode (found nodes : List Text) :
    nodes.foldl reportNode found = found ++ nodes := by
  induction nodes generalizing found with
  | nil => rw [List.foldl_nil, List.append_nil]
  | cons k nodes ih =>
    rw [List.foldl_cons, ih, reportNode, List.append_assoc, List.singleton_append]

/-- The loop for an attribute stops with the answer. -/
theorem turn_whoIs (key : Text → Text) (facts : Facts) (attr : Text) :
    ∃ visited, (Walk.Loop.turn (backward key facts) reportNode)^[
        Walk.pending (backward key facts) [] +
          (Walk.next (backward key facts) (key attr)).length]
        ⟨Walk.next (backward key facts) (key attr), [], []⟩ =
      ⟨[], visited, facts.whoIs key attr⟩ := by
  obtain ⟨visited, h⟩ := Walk.Loop.turn_iterate (backward key facts) reportNode
    ⟨Walk.next (backward key facts) (key attr), [], []⟩ (Nat.le_refl _)
  refine ⟨visited, h.trans ?_⟩
  exact congrArg (Walk.Loop.mk [] visited) (foldl_reportNode [] _)

/-- A question for an attribute ends, after at most one turn of its loop for each link and each
subject that has the attribute itself. The answer has the subjects from which one or more links
lead to the attribute, each once, so both questions agree. -/
theorem whoIs_exact (key : Text → Text) (facts : Facts) (attr : Text) :
    ∃ found visited, facts.whoIs? key .guarded attr = some found ∧
      (Walk.Loop.turn (backward key facts) reportNode)^[
        Walk.pending (backward key facts) [] +
          (Walk.next (backward key facts) (key attr)).length]
        ⟨Walk.next (backward key facts) (key attr), [], []⟩ = ⟨[], visited, found⟩ ∧
      found.Nodup ∧
      (∀ k, k ∈ found ↔ k ∈ facts.keys ∧ TransGen (Leads key facts) k (key attr)) ∧
      ∀ subject, key subject ∈ found ↔
        ∃ answer, facts.whatIs? key .guarded subject = some answer ∧
          ∃ a ∈ answer, key a = key attr := by
  obtain ⟨visited, hv⟩ := turn_whoIs key facts attr
  refine ⟨facts.whoIs key attr, visited, rfl, hv, nodup_whoIs key facts attr, ?_, ?_⟩
  · intro k
    rw [mem_whoIs, iff_and_self]
    exact mem_keys_of_transGen
  · intro subject
    rw [mem_whoIs, ← mem_map_whatIs, List.mem_map]
    constructor
    · exact fun h => ⟨_, rfl, h⟩
    · rintro ⟨answer, h, ha⟩
      obtain rfl := Option.some.inj h
      exact ha

end Syllogism.Facts
