import Syllogism.Proofs.Facts.AskedAgain

/-! Answers by plain recursion. They come to an end unless the links lead round a cycle, and then
they differ from the answers of the walk only by what they repeat. -/

namespace Syllogism.Facts

open Relation

variable {key : Text → Text} {facts : Facts} {subject k n : Text} {depth : Nat}
  {found : List Text}

/-- The recursion for a subject gives the attributes of each node that it comes to. -/
theorem whatIsWithin_eq (key : Text → Text) (facts : Facts) (depth : Nat) (subject : Text) :
    facts.whatIsWithin key depth subject =
      (Walk.plain (Walk.next (forward key facts)) depth (key subject)).map
        (·.flatMap facts.attributes) := by
  induction depth generalizing subject with
  | zero => rfl
  | succ depth ih =>
    have ih' : facts.whatIsWithin key depth = fun a =>
        (Walk.plain (Walk.next (forward key facts)) depth (key a)).map
          (·.flatMap facts.attributes) := funext ih
    rw [whatIsWithin, ih', mapM_map_eq, Walk.plain, next_forward, List.mapM_map, Option.map_map,
      Option.map_map]
    refine congrArg (Option.map · _) (funext fun founds => ?_)
    have hflat : (founds.map (·.flatMap facts.attributes)).flatten =
        founds.flatten.flatMap facts.attributes := by
      rw [← List.flatMap_def, ← List.flatMap_id, List.flatMap_assoc]
      rfl
    rw [Function.comp_apply, Function.comp_apply, hflat, List.flatMap_cons]

/-- Where the recursion ends at two depths, it ends with one answer. -/
theorem whatIsWithin_unique {depth' : Nat} {found' : List Text}
    (h : facts.whatIsWithin key depth subject = some found)
    (h' : facts.whatIsWithin key depth' subject = some found') : found = found' := by
  rw [whatIsWithin_eq, Option.map_eq_some_iff] at h h'
  obtain ⟨nodes, hp, rfl⟩ := h
  obtain ⟨nodes', hp', rfl⟩ := h'
  have hnodes := (Walk.plain_mono hp (Nat.le_max_left depth depth')).symm.trans
    (Walk.plain_mono hp' (Nat.le_max_right depth depth'))
  rw [Option.some.inj hnodes]

theorem whatIs?_unique {mode : Mode} {room room' : Room} {found' : List Text}
    (h : facts.whatIs? key (mode.within room) subject = some found)
    (h' : facts.whatIs? key (mode.within room') subject = some found') : found = found' := by
  cases mode with
  | guarded => exact Option.some.inj (h.symm.trans h')
  | unguarded => exact whatIsWithin_unique h h'

theorem next_eq_leads :
    (fun j k => k ∈ Walk.next (forward key facts) j) = Leads key facts := link_forward

/-- The nodes of an answer are those that one or more links lead to. -/
theorem mem_map_whatIsWithin (h : facts.whatIsWithin key depth subject = some found) :
    n ∈ found.map key ↔ TransGen (Leads key facts) (key subject) n := by
  rw [whatIsWithin_eq, Option.map_eq_some_iff] at h
  obtain ⟨nodes, hw, rfl⟩ := h
  have hm := fun k => Walk.mem_plain_iff (n := k) hw
  simp only [next_eq_leads] at hm
  simp only [List.mem_map, List.mem_flatMap, hm, TransGen.tail'_iff]
  constructor
  · rintro ⟨a, ⟨k, hk, ha⟩, rfl⟩
    exact ⟨k, hk, a, ha, rfl⟩
  · rintro ⟨k, hk, a, ha, rfl⟩
    exact ⟨a, ⟨k, hk, ha⟩, rfl⟩

/-- Links along which no node comes twice are no more than there are subjects. -/
theorem length_lt_of_isChain_forward {path : List Text}
    (h : (k :: path).IsChain fun i j => j ∈ Walk.next (forward key facts) i)
    (hn : (k :: path).Nodup) : path.length < facts.size + 1 := by
  have hkeys : (k :: path).dropLast ⊆ facts.keys := by
    intro i hi
    obtain ⟨j, hj⟩ := Walk.exists_out_of_isChain h hi
    rw [next_forward] at hj
    obtain ⟨a, ha, -⟩ := List.mem_map.mp hj
    exact mem_keys_of_mem_attributes ha
  have hle := ((hn.sublist (List.dropLast_sublist _)).subperm hkeys).length_le
  have hlength : (k :: path).dropLast.length = path.length := List.length_dropLast
  have hsize : facts.keys.length = facts.size := List.length_map _
  omega

/-! What is repeated -/

theorem firstMentions_eq_nil {seen phrases : List Text} (h : ∀ a ∈ phrases, key a ∈ seen) :
    firstMentions key seen phrases = [] := by
  rw [List.eq_nil_iff_forall_not_mem]
  intro a ha
  have hm := mem_map_firstMentions.mp (List.mem_map_of_mem (f := key) ha)
  exact hm.2 (h a ((firstMentions_sublist key seen phrases).subset ha))

/-- A node that stands in the list before has nothing new. -/
theorem firstMentions_eraseDups (key : Text → Text) (attributes : Text → List Text)
    (nodes : List Text) :
    firstMentions key [] (nodes.eraseDups.flatMap attributes) =
      firstMentions key [] (nodes.flatMap attributes) := by
  induction nodes using List.reverseRecOn with
  | nil => rfl
  | append_singleton nodes k ih =>
    rw [List.eraseDups_append, List.flatMap_append, List.flatMap_append, firstMentions_append,
      firstMentions_append, ih, List.append_cancel_left_eq]
    by_cases hk : k ∈ nodes
    · have ha : ∀ a ∈ attributes k, key a ∈
          (firstMentions key [] (nodes.flatMap attributes)).map key ++ [] := by
        intro a ha
        rw [List.append_nil, mem_map_firstMentions]
        exact ⟨List.mem_map_of_mem (List.mem_flatMap.mpr ⟨k, hk, ha⟩), List.not_mem_nil⟩
      rw [List.flatMap_singleton, firstMentions_eq_nil ha]
      simp [List.removeAll, hk, firstMentions]
    · simp [List.removeAll, hk, List.eraseDups_cons]

/-- The walk gives every phrase of the answer whose key does not come before. -/
theorem whatIs_eq_firstMentions (h : facts.whatIsWithin key depth subject = some found) :
    facts.whatIs key subject = firstMentions key [] found := by
  rw [whatIsWithin_eq, Option.map_eq_some_iff] at h
  obtain ⟨nodes, hw, rfl⟩ := h
  rw [whatIs, Walk.order_eq_eraseDups hw, firstMentions_eraseDups]

/-- The plain recursion comes to no end at any depth exactly if a cycle can be reached. Otherwise it
ends with an answer of which the walk gives every phrase whose key does not come before. -/
theorem whatIsWithin_exact (key : Text → Text) (facts : Facts) (subject : Text) :
    ((∀ depth, facts.whatIsWithin key depth subject = none) ↔
      ∃ k, ReflTransGen (Leads key facts) (key subject) k ∧ TransGen (Leads key facts) k k) ∧
    ((¬ ∃ k, ReflTransGen (Leads key facts) (key subject) k ∧ TransGen (Leads key facts) k k) →
      ∃ found, (∀ depth, facts.size < depth →
          facts.whatIsWithin key depth subject = some found) ∧
        facts.whatIs? key .guarded subject = some (firstMentions key [] found)) := by
  constructor
  · have hn := Walk.plain_eq_none_iff fun path =>
      @length_lt_of_isChain_forward key facts (key subject) path
    simp only [whatIsWithin_eq, Option.map_eq_none_iff, hn, next_eq_leads]
  · intro hc
    rw [← next_eq_leads] at hc
    obtain ⟨nodes, hw⟩ := Walk.exists_plain hc fun path => length_lt_of_isChain_forward
    have hd : ∀ depth, facts.size < depth → facts.whatIsWithin key depth subject =
        some (nodes.flatMap facts.attributes) := by
      intro depth hd
      rw [whatIsWithin_eq, Walk.plain_mono hw hd, Option.map_some]
    refine ⟨_, hd, ?_⟩
    rw [whatIs?, whatIs_eq_firstMentions (hd _ (Nat.lt_succ_self _))]

/-- Two ways lead to the last two phrases, so the recursion has one of them twice. -/
theorem whatIsWithin_exact_two_ways :
    let facts : Facts := ⟨[("A", ["b", "c"]), ("B", ["d"]), ("C", ["D", "e"])], by decide⟩
    (¬ ∃ k, ReflTransGen (Leads plainKey facts) (plainKey "a") k ∧
      TransGen (Leads plainKey facts) k k) ∧
    facts.whatIsWithin plainKey 4 "a" = some [Text.of "b", "c", "d", "D", "e"] ∧
    facts.whatIs? plainKey .guarded "a" = some [Text.of "b", "c", "d", "e"] := by
  intro facts
  have hw : facts.whatIsWithin plainKey 4 "a" = some [Text.of "b", "c", "d", "D", "e"] := by
    decide +kernel
  have he := whatIsWithin_exact plainKey facts "a"
  have hc : ¬ ∃ k, ReflTransGen (Leads plainKey facts) (plainKey "a") k ∧
      TransGen (Leads plainKey facts) k k := by
    intro hc
    have hn := he.1.mpr hc 4
    rw [hw] at hn
    cases hn
  obtain ⟨found, hf, hg⟩ := he.2 hc
  have hfound : found = ["b", "c", "d", "D", "e"] :=
    Option.some.inj ((hf 4 (by decide)).symm.trans hw)
  refine ⟨hc, hw, ?_⟩
  rw [hg, hfound]
  decide +kernel

/-! What answers are made of, in both manners -/

theorem exists_mem_attributes_of_whatIsWithin {a : Text}
    (h : facts.whatIsWithin key depth subject = some found) (ha : a ∈ found) :
    ∃ k, a ∈ facts.attributes k := by
  rw [whatIsWithin_eq, Option.map_eq_some_iff] at h
  obtain ⟨nodes, -, rfl⟩ := h
  obtain ⟨k, -, ha⟩ := List.mem_flatMap.mp ha
  exact ⟨k, ha⟩

theorem exists_mem_attributes_of_whatIs? {manner : Manner} {a : Text}
    (h : facts.whatIs? key manner subject = some found) (ha : a ∈ found) :
    ∃ k, a ∈ facts.attributes k := by
  cases manner with
  | guarded =>
    obtain rfl := Option.some.inj h
    obtain ⟨k, -, hk⟩ := mem_whatIs ha
    exact ⟨k, hk⟩
  | unguarded room => exact exists_mem_attributes_of_whatIsWithin h ha

theorem mem_keys_of_whoIs? {manner : Manner} {attr : Text}
    (h : facts.whoIs? key manner attr = some found) (hk : k ∈ found) : k ∈ facts.keys := by
  cases manner with
  | guarded =>
    obtain rfl := Option.some.inj h
    exact mem_keys_of_transGen (mem_whoIs.mp hk)
  | unguarded room => exact mem_keys_of_asks ((mem_whoIsWithin_iff h).mp hk)

theorem exists_mem_whatIs?_of_transGen {manner : Manner}
    (h : facts.whatIs? key manner subject = some found)
    (ht : TransGen (Leads key facts) (key subject) n) : ∃ a ∈ found, key a = n := by
  rw [← List.mem_map]
  cases manner with
  | guarded =>
    obtain rfl := Option.some.inj h
    exact mem_map_whatIs.mpr ht
  | unguarded room => exact (mem_map_whatIsWithin h).mpr ht

/-- A question is always answered in the guarded manner, and by each phrase with the key. -/
theorem exists_whatIs?_of_transGen {attr phrase : Text} (hk : key phrase = k)
    (ht : TransGen (Leads key facts) k (key attr)) :
    ∃ answer, facts.whatIs? key .guarded phrase = some answer ∧ ∃ b ∈ answer, key b = key attr := by
  have h : facts.whatIs? key .guarded phrase = some (facts.whatIs key phrase) := rfl
  exact ⟨_, h, exists_mem_whatIs?_of_transGen h (hk.symm ▸ ht)⟩

theorem exists_mem_whatIs? {manner : Manner} (h : facts.whatIs? key manner subject = some found)
    (hl : Leads key facts (key subject) n) : ∃ a ∈ found, key a = n :=
  exists_mem_whatIs?_of_transGen h (.single hl)

theorem mem_whoIs? {manner : Manner} {attr : Text} (h : facts.whoIs? key manner attr = some found)
    (hl : Leads key facts k (key attr)) : k ∈ found := by
  cases manner with
  | guarded =>
    obtain rfl := Option.some.inj h
    exact mem_whoIs.mpr (.single hl)
  | unguarded room => exact (mem_whoIsWithin_iff h).mpr (.single hl)

end Syllogism.Facts
