import Syllogism.Proofs.Facts.TellAll

/-! Facts that others grow from: no subject leaves its place, nothing that was told of one is lost,
and no question has fewer answers. -/

namespace Syllogism.Facts

open Relation

variable {key : Text → Text} {facts facts' facts'' : Facts} {j k : Text}

/-- New subjects come behind those that are there, and new attributes behind those of a subject. -/
structure Grows (facts facts' : Facts) : Prop where
  keys : facts.keys <+: facts'.keys
  attributes : ∀ k, facts.attributes k <+: facts'.attributes k

theorem Grows.refl (facts : Facts) : Grows facts facts where
  keys := List.prefix_refl _
  attributes _ := List.prefix_refl _

theorem Grows.trans (h : Grows facts facts') (h' : Grows facts' facts'') : Grows facts facts'' where
  keys := h.keys.trans h'.keys
  attributes k := (h.attributes k).trans (h'.attributes k)

theorem grows_tell (key : Text → Text) (facts : Facts) (subject attr : Text) :
    Grows facts (facts.tell key subject attr) where
  keys := by
    rw [keys_tell]
    exact List.prefix_append _ _
  attributes k := by
    rw [attributes_tell]
    exact List.prefix_append _ _

theorem Grows.leads (h : Grows facts facts') (hl : Leads key facts j k) : Leads key facts' j k := by
  obtain ⟨a, ha, hk⟩ := hl
  exact ⟨a, (h.attributes j).subset ha, hk⟩

theorem Grows.transGen (h : Grows facts facts') (hl : TransGen (Leads key facts) j k) :
    TransGen (Leads key facts') j k :=
  TransGen.mono (fun _ _ => h.leads) _ _ hl

/-- The answer to a question has all nodes that it had, maybe in another order. -/
theorem Grows.whatIs (h : Grows facts facts') (key : Text → Text) (subject : Text) :
    (facts.whatIs key subject).map key ⊆ (facts'.whatIs key subject).map key := by
  intro n hn
  rw [mem_map_whatIs] at hn ⊢
  exact h.transGen hn

theorem Grows.whoIs (h : Grows facts facts') (key : Text → Text) (attr : Text) :
    facts.whoIs key attr ⊆ facts'.whoIs key attr := by
  intro k hk
  rw [mem_whoIs] at hk ⊢
  exact h.transGen hk

end Syllogism.Facts
