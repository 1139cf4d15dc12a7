import Syllogism.Facts.Unguarded
import Syllogism.Proofs.Text.SameCase

/-! Facts that differ in nothing but the case of their attributes: what is told of them keeps them
so, and questions find the same nodes in the same order. -/

namespace Syllogism.Facts

open List (Forall₂)

/-- The same key, with equally many attributes, which differ in case at most. -/
def SameEntry (e e' : Text × List Text) : Prop := e.1 = e'.1 ∧ Forall₂ Text.SameCase e.2 e'.2

/-- The same keys in the same order, with attributes that differ in case at most. -/
def SameCase (facts facts' : Facts) : Prop := Forall₂ SameEntry facts.entries facts'.entries

instance (e e' : Text × List Text) : Decidable (SameEntry e e') :=
  inferInstanceAs (Decidable (_ ∧ _))

instance (facts facts' : Facts) : Decidable (SameCase facts facts') :=
  inferInstanceAs (Decidable (Forall₂ SameEntry facts.entries facts'.entries))

variable {facts facts' : Facts} {key : Text → Text} {subject subject' attr attr' : Text}
  {phrases phrases' : List Text} {entries entries' : List (Text × List Text)}

theorem sameCase_empty : SameCase OrderedMap.empty OrderedMap.empty := .nil

theorem valueIn?_sameCase (h : Forall₂ SameEntry entries entries') (k : Text) :
    Option.Rel (Forall₂ Text.SameCase) (OrderedMap.valueIn? k entries)
      (OrderedMap.valueIn? k entries') := by
  induction h with
  | nil => exact .none
  | cons he _ ih =>
    obtain ⟨hk, ha⟩ := he
    rw [OrderedMap.valueIn?, OrderedMap.valueIn?, ← hk]
    split
    · exact .some ha
    · exact ih

theorem SameCase.get? (h : facts.SameCase facts') (k : Text) :
    Option.Rel (Forall₂ Text.SameCase) (facts.get? k) (facts'.get? k) :=
  valueIn?_sameCase h k

theorem SameCase.attributes_sameCase (h : facts.SameCase facts') (k : Text) :
    Forall₂ Text.SameCase (facts.attributes k) (facts'.attributes k) := by
  have hg := h.get? k
  rw [Facts.attributes, Facts.attributes]
  generalize facts.get? k = found, facts'.get? k = found' at hg
  cases hg with
  | none => exact .nil
  | some ha => exact ha

theorem putIn_sameCase (h : Forall₂ SameEntry entries entries') (k : Text)
    (ha : Forall₂ Text.SameCase phrases phrases') :
    Forall₂ SameEntry (OrderedMap.putIn k phrases entries)
      (OrderedMap.putIn k phrases' entries') := by
  induction h with
  | nil => exact .cons ⟨rfl, ha⟩ .nil
  | cons he hrest ih =>
    obtain ⟨hk, hold⟩ := he
    rw [OrderedMap.putIn, OrderedMap.putIn, ← hk]
    split
    · exact .cons ⟨rfl, ha⟩ hrest
    · exact .cons ⟨rfl, hold⟩ ih

theorem SameCase.put (h : facts.SameCase facts') (k : Text)
    (ha : Forall₂ Text.SameCase phrases phrases') :
    SameCase (facts.put k phrases) (facts'.put k phrases') :=
  putIn_sameCase h k ha

section Key

/-! Keys that take no notice of case -/

variable (hkey : ∀ s t : Text, s.SameCase t → key s = key t)

include hkey

theorem map_key_eq (h : Forall₂ Text.SameCase phrases phrases') :
    phrases.map key = phrases'.map key := by
  induction h with
  | nil => rfl
  | cons hp _ ih => rw [List.map_cons, List.map_cons, hkey _ _ hp, ih]

/-- What is told differs in case only, and so does what becomes of it. -/
theorem SameCase.outcome_eq (h : facts.SameCase facts') (hs : subject.SameCase subject')
    (ha : attr.SameCase attr') :
    facts.outcome key subject attr = facts'.outcome key subject' attr' := by
  have hany : ∀ {phrases : List Text}, (phrases.any fun a => key a == key attr) =
      (phrases.map key).any (· == key attr) := by
    intro phrases
    rw [List.any_map]
    rfl
  have hg := h.get? (key subject)
  rw [outcome, outcome, ← hkey _ _ hs, ← hkey _ _ ha]
  generalize facts.get? (key subject) = found, facts'.get? (key subject) = found' at hg
  cases hg with
  | none => rfl
  | some hfound => simp only [hany, map_key_eq hkey hfound]

theorem SameCase.tell (h : facts.SameCase facts') (hs : subject.SameCase subject')
    (ha : attr.SameCase attr') :
    SameCase (facts.tell key subject attr) (facts'.tell key subject' attr') := by
  rw [Facts.tell, Facts.tell, ← h.outcome_eq hkey hs ha, ← hkey _ _ hs]
  cases facts.outcome key subject attr with
  | newSubject => exact h.put _ (.cons ha .nil)
  | known => exact h
  | joined => exact h.put _ (List.rel_append (h.attributes_sameCase _) (.cons ha .nil))

/-! Questions -/

theorem map_entry_eq (h : Forall₂ SameEntry entries entries') :
    (entries.map fun e => (e.1, e.2.map key)) = entries'.map fun e => (e.1, e.2.map key) := by
  induction h with
  | nil => rfl
  | cons he _ ih => rw [List.map_cons, List.map_cons, he.1, map_key_eq hkey he.2, ih]

theorem SameCase.forward_eq (h : facts.SameCase facts') : forward key facts = forward key facts' :=
  OrderedMap.ext (map_entry_eq hkey h)

theorem firstMentions_sameCase (seen : List Text) (h : Forall₂ Text.SameCase phrases phrases') :
    Forall₂ Text.SameCase (firstMentions key seen phrases) (firstMentions key seen phrases') := by
  induction h generalizing seen with
  | nil => exact .nil
  | cons hp _ ih =>
    rw [firstMentions, firstMentions, ← hkey _ _ hp]
    split
    · exact ih seen
    · exact .cons hp (ih _)

theorem SameCase.whatIs (h : facts.SameCase facts') (hs : subject.SameCase subject') :
    Forall₂ Text.SameCase (facts.whatIs key subject) (facts'.whatIs key subject') := by
  -- the nodes are keys, so both visit the same ones, and read there what differs in case only
  rw [Facts.whatIs, Facts.whatIs, ← h.forward_eq hkey, ← hkey _ _ hs]
  refine firstMentions_sameCase hkey [] ?_
  induction Walk.order (forward key facts) [] [key subject] with
  | nil => exact .nil
  | cons k nodes ih => exact List.rel_append (h.attributes_sameCase k) ih

theorem SameCase.backward_eq (h : facts.SameCase facts') :
    backward key facts = backward key facts' := by
  have hpairs : Forall₂ (fun p p' => p.1 = p'.1 ∧ key p.2 = key p'.2) facts.pairs facts'.pairs := by
    refine List.rel_flatMap h fun e e' he => ?_
    refine List.forall₂_map_left_iff.mpr (List.forall₂_map_right_iff.mpr ?_)
    exact he.2.imp fun _ _ ha => ⟨he.1, hkey _ _ ha⟩
  refine List.rel_foldl ?_ rfl hpairs
  rintro index _ rfl p p' ⟨hk, ha⟩
  simp only [hk, ha]

theorem SameCase.whoIs_eq (h : facts.SameCase facts') (ha : attr.SameCase attr') :
    facts.whoIs key attr = facts'.whoIs key attr' := by
  rw [Facts.whoIs, Facts.whoIs, ← h.backward_eq hkey, ← hkey _ _ ha]

end Key

end Syllogism.Facts
