import Syllogism.Proofs.Facts.Unguarded
import Syllogism.Proofs.Json.Integers
import Syllogism.Proofs.Text.Upper
import Syllogism.Proofs.Walk.Ways

/-! What the plain recursion repeats. It reports a node once for every way to it, as long as the
ways are shorter than its depth. -/

namespace Syllogism

/-- The decimal figures, as a run. -/
def Text.figures : Text.Run := ⟨0x30, 0x39, 1, 0x30⟩

/-- A number has no case and no white space in it. -/
theorem plainKey_ofNat (n : Nat) : plainKey (Text.ofNat n) = Text.ofNat n := by
  have hspares : Text.upperCase.spares Text.figures = true := by decide +kernel
  have hfigure : ∀ c ∈ Text.ofNat n, 0x30 ≤ c.code ∧ c.code ≤ 0x39 := by
    intro c hc
    have hf := Json.isFigure_of_mem_ofNat hc
    rwa [Json.isFigure, Bool.and_eq_true, decide_eq_true_eq, decide_eq_true_eq] at hf
  have hsolid : ∀ c ∈ Text.ofNat n, Text.isBlank c = false := by
    intro c hc
    have hrange := hfigure c hc
    simp only [Text.isBlank, Bool.or_eq_false_iff, Bool.and_eq_false_iff, decide_eq_false_iff_not,
      beq_eq_false_iff_ne]
    omega
  have htrimmed : Text.Trimmed (Text.ofNat n) :=
    ⟨fun c hc => hsolid c (List.mem_of_head? hc), fun c hc => hsolid c (List.mem_of_getLast? hc)⟩
  rw [plainKey, htrimmed.trim_eq]
  refine Text.upper_eq_self fun c hc => ?_
  have hhas : Text.figures.Has c.code := ⟨(hfigure c hc).1, (hfigure c hc).2, Nat.mod_one _⟩
  exact Text.CaseMap.apply_eq_self hhas hspares

namespace Facts

open Relation

variable {key : Text → Text} {facts : Facts} {subject j k n : Text} {depth m i : Nat}
  {found : List Text}

/-- Where a way ends that starts at a node and takes the attributes at these positions, one after
the other. -/
def wayEnd? (key : Text → Text) (facts : Facts) : (k : Text) → (way : List Nat) → Option Text :=
  Walk.follow? fun j => (facts.attributes j).map key

/-- The ways of one or more attributes from one node to another. -/
def ways (key : Text → Text) (facts : Facts) : (k n : Text) → Set (List Nat) :=
  Walk.ways fun j => (facts.attributes j).map key

theorem whatIsWithin_eq_plain (key : Text → Text) (facts : Facts) (depth : Nat) (subject : Text) :
    facts.whatIsWithin key depth subject =
      (Walk.plain (fun j => (facts.attributes j).map key) depth (key subject)).map
        (·.flatMap facts.attributes) := by
  have hnext : Walk.next (forward key facts) = fun j => (facts.attributes j).map key :=
    funext (next_forward key facts)
  rw [whatIsWithin_eq, hnext]

/-- The recursion comes to an end exactly at the depths above the length of the ways. -/
theorem isSome_whatIsWithin_iff : (facts.whatIsWithin key depth subject).isSome = true ↔
    ∀ way, (facts.wayEnd? key (key subject) way).isSome = true → way.length < depth := by
  rw [whatIsWithin_eq_plain, Option.isSome_map]
  exact Walk.isSome_plain_iff

/-- The recursion reports a node as often as there are ways to it. -/
theorem encard_ways (h : facts.whatIsWithin key depth subject = some found) (n : Text) :
    (facts.ways key (key subject) n).encard = (found.map key).count n := by
  rw [whatIsWithin_eq_plain, Option.map_eq_some_iff] at h
  obtain ⟨nodes, hp, rfl⟩ := h
  rw [List.map_flatMap]
  exact Walk.encard_ways hp n

theorem nodup_map_iff (h : facts.whatIsWithin key depth subject = some found) :
    (found.map key).Nodup ↔ ∀ n, (facts.ways key (key subject) n).Subsingleton := by
  simp only [List.nodup_iff_count_le_one, ← Set.encard_le_one_iff_subsingleton, encard_ways h,
    Nat.cast_le_one]

/-- All phrases are left exactly if no two of them have one key. -/
theorem length_firstMentions_eq_iff (key : Text → Text) (phrases : List Text) :
    (firstMentions key [] phrases).length = phrases.length ↔ (phrases.map key).Nodup := by
  constructor
  · intro h
    have heq := (firstMentions_sublist key [] phrases).eq_of_length h
    exact heq ▸ nodup_map_firstMentions key [] phrases
  · intro h
    have hperm : ((firstMentions key [] phrases).map key).Perm (phrases.map key) := by
      rw [List.perm_ext_iff_of_nodup (nodup_map_firstMentions key [] phrases) h]
      intro n
      rw [mem_map_firstMentions]
      exact and_iff_left List.not_mem_nil
    simpa only [List.length_map] using hperm.length_eq

/-- Where no links lead round a cycle, the ways are no longer than there are subjects, and at every
depth above their length the recursion reports each node once for every way to it, so none twice
exactly if there are no two ways to any. Exactly then the answer of the walk is as long. At another
depth, such as the limit of the program may be, the recursion has no answer. -/
theorem reported_once_per_way (hc : ¬ ∃ k, ReflTransGen (Leads key facts) (key subject) k ∧
      TransGen (Leads key facts) k k) :
    ∃ found,
      (∀ depth, (∀ way, (facts.wayEnd? key (key subject) way).isSome = true → way.length < depth) →
        facts.whatIsWithin key depth subject = some found) ∧
      (∀ depth way, (facts.wayEnd? key (key subject) way).isSome = true → depth ≤ way.length →
        facts.whatIsWithin key depth subject = none) ∧
      (∀ way, (facts.wayEnd? key (key subject) way).isSome = true → way.length ≤ facts.size) ∧
      (∀ n, (facts.ways key (key subject) n).encard = (found.map key).count n) ∧
      ((found.map key).Nodup ↔ ∀ n, (facts.ways key (key subject) n).Subsingleton) ∧
      ∃ walked, facts.whatIs? key .guarded subject = some walked ∧
        (walked.length = found.length ↔ (found.map key).Nodup) := by
  rw [← next_eq_leads] at hc
  obtain ⟨nodes, hp⟩ := Walk.exists_plain hc fun path => length_lt_of_isChain_forward
  have hend : facts.whatIsWithin key (facts.size + 1) subject =
      some (nodes.flatMap facts.attributes) := by
    rw [whatIsWithin_eq, hp, Option.map_some]
  refine ⟨_, ?_, ?_, ?_, encard_ways hend, nodup_map_iff hend, _, rfl, ?_⟩
  · intro depth hlt
    obtain ⟨found, hfound⟩ := Option.isSome_iff_exists.mp (isSome_whatIsWithin_iff.mpr hlt)
    rw [hfound, whatIsWithin_unique hfound hend]
  · intro depth way hway hle
    rw [← Option.not_isSome_iff_eq_none, isSome_whatIsWithin_iff]
    exact fun hlt => Nat.not_lt.mpr hle (hlt way hway)
  · intro way hway
    have hsome : (facts.whatIsWithin key (facts.size + 1) subject).isSome = true :=
      Option.isSome_iff_exists.mpr ⟨_, hend⟩
    exact Nat.le_of_lt_succ (isSome_whatIsWithin_iff.mp hsome way hway)
  · rw [whatIs_eq_firstMentions hend]
    exact length_firstMentions_eq_iff key _

/-- Two ways lead to one of the nodes. -/
theorem reported_once_per_way_two_ways :
    let facts : Facts := ⟨[("A", ["b", "c"]), ("B", ["d"]), ("C", ["D", "e"])], by decide⟩
    (¬ ∃ k, ReflTransGen (Leads plainKey facts) (plainKey "a") k ∧
      TransGen (Leads plainKey facts) k k) ∧
    (∀ depth, 3 < depth →
      facts.whatIsWithin plainKey depth "a" = some [Text.of "b", "c", "d", "D", "e"]) ∧
    (facts.ways plainKey (plainKey "a") "D").encard = 2 ∧
    ¬ (∀ n, (facts.ways plainKey (plainKey "a") n).Subsingleton) ∧
    ∃ walked, facts.whatIs? plainKey .guarded "a" = some walked ∧ walked.length ≠ 5 := by
  intro facts
  have hnone : ¬ ∃ k, TransGen (Leads plainKey facts) k k := by decide +kernel
  have hc : ¬ ∃ k, ReflTransGen (Leads plainKey facts) (plainKey "a") k ∧
      TransGen (Leads plainKey facts) k k := fun ⟨k, _, hk⟩ => hnone ⟨k, hk⟩
  have hfour : facts.whatIsWithin plainKey 4 "a" = some [Text.of "b", "c", "d", "D", "e"] := by
    decide +kernel
  obtain ⟨found, hfound, -, hshort, hcount, hnodup, walked, hwalked, hlength⟩ :=
    reported_once_per_way hc
  have hdepth : ∀ depth, 3 < depth → facts.whatIsWithin plainKey depth "a" = some found :=
    fun depth hd => hfound depth fun way hway => (hshort way hway).trans_lt hd
  obtain rfl : found = [Text.of "b", "c", "d", "D", "e"] :=
    Option.some.inj ((hdepth 4 (by decide)).symm.trans hfour)
  have htwice : ¬ ([Text.of "b", "c", "d", "D", "e"].map plainKey).Nodup := by decide +kernel
  have htwo : ([Text.of "b", "c", "d", "D", "e"].map plainKey).count (Text.of "D") = 2 := by
    decide +kernel
  refine ⟨hc, hdepth, ?_, fun h => htwice (hnodup.mpr h), walked, hwalked,
    fun h => htwice (hlength.mp h)⟩
  rw [hcount, htwo]
  rfl

/-! A chain of facts -/

/-- Each number is told to be the next one. -/
def chain (length : Nat) : Facts :=
  ⟨(List.range length).map fun i => (Text.ofNat i, [Text.ofNat (i + 1)]), by
    rw [List.map_map]
    exact List.nodup_range.map Json.ofNat_injective⟩

theorem attributes_chain {length : Nat} (hi : i < length) :
    (chain length).attributes (Text.ofNat i) = [Text.ofNat (i + 1)] := by
  have hget : (chain length).get? (Text.ofNat i) = some [Text.ofNat (i + 1)] :=
    OrderedMap.get?_eq_some_iff.mpr (List.mem_map_of_mem (List.mem_range.mpr hi))
  rw [attributes, hget, Option.getD_some]

theorem wayEnd?_chain {length : Nat} (h : i + m ≤ length) :
    (chain length).wayEnd? plainKey (Text.ofNat i) (List.replicate m 0) =
      some (Text.ofNat (i + m)) := by
  induction m generalizing i with
  | zero => rfl
  | succ m ih =>
    have hstep := ih (i := i + 1) (by omega)
    rw [wayEnd?] at hstep ⊢
    rw [List.replicate_succ, Walk.follow?, attributes_chain (by omega), List.map_singleton,
      plainKey_ofNat, List.getElem?_cons_zero, Option.bind_some, hstep, Nat.add_right_comm,
      Nat.add_assoc]

theorem leads_chain {length : Nat} (h : Leads plainKey (chain length) j k) :
    Decimal.valueOf j < Decimal.valueOf k := by
  obtain ⟨a, ha, rfl⟩ := h
  obtain ⟨attributes, he, ha⟩ := mem_attributes_iff.mp ha
  obtain ⟨i, -, hi⟩ := List.mem_map.mp he
  obtain ⟨rfl, rfl⟩ := Prod.mk.inj hi
  rw [List.mem_singleton.mp ha, plainKey_ofNat, Json.valueOf_ofNat, Json.valueOf_ofNat]
  exact Nat.lt_succ_self i

theorem not_transGen_chain {length : Nat} : ¬ TransGen (Leads plainKey (chain length)) k k := by
  intro h
  have hlt : ∀ {i j}, TransGen (Leads plainKey (chain length)) i j →
      Decimal.valueOf i < Decimal.valueOf j := by
    intro i j hij
    induction hij with
    | single hl => exact leads_chain hl
    | tail _ hl ih => exact ih.trans (leads_chain hl)
  exact (hlt h).false

/-- No way of a chain leads back, but one is longer than a thousand links, so the recursion has no
answer in room for a thousand questions. -/
theorem long_chain_too_deep :
    (¬ ∃ k, ReflTransGen (Leads plainKey (chain 1100)) (plainKey "0") k ∧
      TransGen (Leads plainKey (chain 1100)) k k) ∧
    [0] ∈ (chain 1100).ways plainKey (plainKey "0") "1" ∧
    (chain 1100).whatIs? plainKey (.unguarded ⟨1000, 1000⟩) "0" = none := by
  have hzero : plainKey "0" = Text.ofNat 0 := plainKey_ofNat 0
  have hway : ∀ m ≤ 1100, (chain 1100).wayEnd? plainKey (plainKey "0") (List.replicate m 0) =
      some (Text.ofNat m) := by
    intro m hm
    rw [hzero, wayEnd?_chain (by omega), Nat.zero_add]
  refine ⟨fun ⟨_, _, hk⟩ => not_transGen_chain hk, ⟨List.cons_ne_nil 0 [], hway 1 (by decide)⟩, ?_⟩
  rw [whatIs?, ← Option.not_isSome_iff_eq_none, isSome_whatIsWithin_iff]
  intro hlt
  have hlong := hlt (List.replicate 1000 0) (by rw [hway _ (by decide)]; rfl)
  rw [List.length_replicate] at hlong
  exact hlong.false

end Facts

end Syllogism
