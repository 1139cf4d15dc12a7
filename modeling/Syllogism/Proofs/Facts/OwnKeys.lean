import Syllogism.Proofs.Facts.Stored
import Syllogism.Proofs.Facts.Told

/-! Facts under keys as they stand. Such a key is its own key, so a subject that is reported can be
asked about, whenever the facts were told and however often they were read back in between. -/

namespace Syllogism.Facts

open Relation

variable {facts facts' : Facts} {k attr : Text}

/-- What one call makes of facts: one more is told, or they are written and read back. -/
inductive Call (facts : Facts) : Facts → Prop
  | tell (subject attr : Text) : Call facts (facts.tell plainKey subject attr)
  | reread (hg : facts.gap? = none) {room : Nat} {facts' : Facts}
    (hr : ofBytes (room + 2) facts.bytes = .ok facts') : Call facts facts'

/-- Every subject is its own key as it stands. -/
def OwnKeys (facts : Facts) : Prop := ∀ k ∈ facts.keys, plainKey k = k

theorem OwnKeys.call (h : facts.OwnKeys) (hc : Call facts facts') : facts'.OwnKeys := by
  cases hc with
  | tell subject attr =>
    obtain ⟨-, -, ht⟩ | ⟨-, -, ht⟩ := tell_cases plainKey facts subject attr
    · intro k hk
      rw [ht] at hk
      rcases mem_keys_put.mp hk with rfl | hk
      · exact plainKey_plainKey subject
      · exact h k hk
    · rwa [ht]
  | reread hg hr =>
    rw [ofBytes_bytes _ hg] at hr
    rwa [← Except.ok.inj hr]

theorem OwnKeys.calls (h : facts.OwnKeys) (hc : ReflTransGen Call facts facts') :
    facts'.OwnKeys := by
  induction hc with
  | refl => exact h
  | tail _ hc ih => exact ih.call hc

theorem OwnKeys.contains (h : facts.OwnKeys) (hk : k ∈ facts.keys) :
    facts.contains (plainKey k) = true := by
  rw [h k hk]
  exact (facts.contains_iff_mem_keys k).mpr hk

/-- If every subject is its own key, those that are found for an attribute are those whose answer has
it. -/
theorem OwnKeys.mem_whoIs_iff (h : facts.OwnKeys) :
    k ∈ facts.whoIs plainKey attr ↔
      k ∈ facts.keys ∧ plainKey attr ∈ (facts.whatIs plainKey k).map plainKey := by
  rw [mem_map_whatIs, mem_whoIs]
  constructor
  · intro hl
    have hk := mem_keys_of_transGen hl
    rw [h k hk]
    exact ⟨hk, hl⟩
  · rintro ⟨hk, hl⟩
    rwa [h k hk] at hl

/-- After any calls, from no facts at all, every subject is its own key and stands under it. A question
for an attribute reports exactly the subjects of which one learns it when one asks what they are. -/
theorem keys_stable (h : ReflTransGen Call OrderedMap.empty facts) :
    (∀ k ∈ facts.keys, plainKey k = k ∧ facts.contains (plainKey k) = true) ∧
    ∀ attr, ∃ found, facts.whoIs? plainKey .guarded attr = some found ∧
      ∀ k, k ∈ found ↔ k ∈ facts.keys ∧
        ∃ answer, facts.whatIs? plainKey .guarded k = some answer ∧
          ∃ a ∈ answer, plainKey a = plainKey attr := by
  have hown : facts.OwnKeys := OwnKeys.calls (fun k hk => absurd hk List.not_mem_nil) h
  refine ⟨fun k hk => ⟨hown k hk, hown.contains hk⟩, fun attr => ⟨_, rfl, fun k => ?_⟩⟩
  rw [hown.mem_whoIs_iff, List.mem_map]
  constructor
  · rintro ⟨hk, ha⟩
    exact ⟨hk, _, rfl, ha⟩
  · rintro ⟨hk, answer, hanswer, ha⟩
    obtain rfl := Option.some.inj hanswer
    exact ⟨hk, ha⟩

/-- A key that is longer than its phrase, read back before more is told. -/
theorem keys_stable_strasse :
    let facts := (tell plainKey OrderedMap.empty "Straße" "via").tell plainKey " via" "luogo"
    ReflTransGen Call OrderedMap.empty facts ∧
    facts.keys = [Text.of "STRASSE", "VIA"] ∧ facts.contains (plainKey "STRASSE") = true ∧
    facts.whoIs? plainKey .guarded "Luogo" = some [Text.of "VIA", "STRASSE"] ∧
    ∃ answer, facts.whatIs? plainKey .guarded "STRASSE" = some answer ∧
      ∃ a ∈ answer, plainKey a = plainKey "Luogo" := by
  intro facts
  have hg : (tell plainKey OrderedMap.empty "Straße" "via").gap? = none := by decide +kernel
  have hc : ReflTransGen Call OrderedMap.empty facts :=
    ((ReflTransGen.single (.tell "Straße" "via")).tail (.reread hg (ofBytes_bytes 898 hg))).tail
      (.tell " via" "luogo")
  obtain ⟨hkeys, hfound⟩ := keys_stable hc
  obtain ⟨found, hf, hmem⟩ := hfound "Luogo"
  have hk : facts.keys = [Text.of "STRASSE", "VIA"] := by decide +kernel
  have hw : facts.whoIs? plainKey .guarded "Luogo" = some [Text.of "VIA", "STRASSE"] := by
    decide +kernel
  obtain rfl := Option.some.inj (hf.symm.trans hw)
  exact ⟨hc, hk, (hkeys "STRASSE" (by simp [hk])).2, hw, ((hmem "STRASSE").mp (by simp)).2⟩

end Syllogism.Facts
