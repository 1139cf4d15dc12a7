import Mathlib.Data.List.Induction
import Syllogism.Proofs.Facts.Told

/-! Facts told one after the other: which of them are news, where the news goes, and what does not
depend on the order in which they came. -/

namespace Syllogism.Facts

variable {key : Text → Text} {facts : Facts} {j k subject attr : Text}
variable {told told' : List (Text × Text)}

/-! One fact -/

theorem isNews_outcome :
    (facts.outcome key subject attr).isNews = true ↔ ¬ Leads key facts (key subject) (key attr) := by
  obtain ⟨hn, ho, -⟩ | ⟨hk, ho, -⟩ := tell_cases key facts subject attr
  · simp [hn, ho]
  · simp [hk, ho, Outcome.isNews]

theorem keys_tell : (facts.tell key subject attr).keys =
    facts.keys ++ if key subject ∈ facts.keys then [] else [key subject] := by
  obtain ⟨-, -, ht⟩ | ⟨hk, -, ht⟩ := tell_cases key facts subject attr
  · rw [ht, OrderedMap.keys_put]
    split <;> simp
  · simp [ht, mem_keys_of_leads hk]

instance (key : Text → Text) (facts : Facts) (j k : Text) : Decidable (Leads key facts j k) :=
  inferInstanceAs (Decidable (∃ a ∈ facts.attributes j, key a = k))

theorem attributes_tell : (facts.tell key subject attr).attributes k = facts.attributes k ++
    if key subject = k ∧ ¬ Leads key facts k (key attr) then [attr] else [] := by
  obtain ⟨hn, -, ht⟩ | ⟨hk, -, ht⟩ := tell_cases key facts subject attr
  · rw [ht, attributes_put]
    by_cases h : key subject = k
    · subst h
      simp [hn]
    · have h' : ¬ k = key subject := fun he => h he.symm
      simp [h, h']
  · rw [ht]
    by_cases h : key subject = k
    · subst h
      simp [hk]
    · simp [h]

theorem get?_tell_of_ne (h : k ≠ key subject) :
    (facts.tell key subject attr).get? k = facts.get? k := by
  obtain ⟨-, -, ht⟩ | ⟨-, -, ht⟩ := tell_cases key facts subject attr
  · rw [ht, OrderedMap.get?_put, if_neg h]
  · rw [ht]

/-- A fact adds the one link from its subject to what is told of it. -/
theorem leads_tell : Leads key (facts.tell key subject attr) j k ↔
    Leads key facts j k ∨ key subject = j ∧ key attr = k := by
  rw [leads_iff_mem_map, attributes_tell, List.map_append, List.mem_append, ← leads_iff_mem_map]
  by_cases hs : key subject = j
  · by_cases hl : Leads key facts j (key attr)
    · have he : key attr = k → Leads key facts j k := fun h => h ▸ hl
      simpa [hs, hl] using he
    · simp [hs, hl, eq_comm]
  · simp [hs]

/-! Several facts -/

theorem tellAll_append_singleton (key : Text → Text) (facts : Facts) (told : List (Text × Text))
    (p : Text × Text) : facts.tellAll key (told ++ [p]) =
      ((facts.tellAll key told).1.tell key p.1 p.2,
        (facts.tellAll key told).2 ++ [(facts.tellAll key told).1.outcome key p.1 p.2]) := by
  induction told generalizing facts with
  | nil => rfl
  | cons q told ih => simp [tellAll, ih]

theorem leads_tellAll : Leads key (facts.tellAll key told).1 j k ↔
    Leads key facts j k ∨ ∃ p ∈ told, key p.1 = j ∧ key p.2 = k := by
  induction told using List.reverseRecOn with
  | nil => simp [tellAll]
  | append_singleton told p ih =>
    rw [tellAll_append_singleton, leads_tell, ih, or_assoc]
    simp [or_and_right, exists_or]

theorem mem_keys_tellAll : k ∈ (facts.tellAll key told).1.keys ↔
    k ∈ facts.keys ∨ ∃ p ∈ told, key p.1 = k := by
  induction told using List.reverseRecOn with
  | nil => simp [tellAll]
  | append_singleton told p ih =>
    have hk : k ∈ (facts.tellAll key (told ++ [p])).1.keys ↔
        k ∈ (facts.tellAll key told).1.keys ∨ key p.1 = k := by
      rw [tellAll_append_singleton, keys_tell, List.mem_append]
      split
      · rename_i hp
        have he : key p.1 = k → k ∈ (facts.tellAll key told).1.keys := fun h => h ▸ hp
        simpa using he
      · simp [eq_comm]
    rw [hk, ih, or_assoc]
    simp [or_and_right, exists_or]

/-- Each fact with those that were told before it. -/
def withEarlier (told : List (Text × Text)) : List ((Text × Text) × List (Text × Text)) :=
  told.zipIdx.map fun p => (p.1, told.take p.2)

/-- A fact is news after earlier ones if its subject has no attribute with the same key, neither
from the start nor from one of them. -/
def IsNews (key : Text → Text) (facts : Facts) (p : (Text × Text) × List (Text × Text)) : Prop :=
  (∀ a ∈ facts.attributes (key p.1.1), key a ≠ key p.1.2) ∧
    ∀ q ∈ p.2, key q.1 = key p.1.1 → key q.2 ≠ key p.1.2

instance (key : Text → Text) (facts : Facts) : DecidablePred (IsNews key facts) :=
  fun _ => inferInstanceAs (Decidable (_ ∧ _))

/-- What is told of the subject with key `k` and is news, as it is written. -/
def newAttributes (key : Text → Text) (facts : Facts) (told : List (Text × Text)) (k : Text) :
    List Text :=
  ((withEarlier told).filter fun p => key p.1.1 = k ∧ IsNews key facts p).map fun p => p.1.2

/-- The keys of subjects that were not there from the start, in the order in which they are first
told of. -/
def newSubjects (key : Text → Text) (facts : Facts) (told : List (Text × Text)) : List Text :=
  ((withEarlier told).filter fun p =>
    !(facts.keys ++ p.2.map fun q => key q.1).contains (key p.1.1)).map fun p => key p.1.1

theorem withEarlier_append_singleton (told : List (Text × Text)) (p : Text × Text) :
    withEarlier (told ++ [p]) = withEarlier told ++ [(p, told)] := by
  have ht : ∀ q ∈ told.zipIdx, (told ++ [p]).take q.2 = told.take q.2 := by
    intro q hq
    have := List.snd_lt_of_mem_zipIdx hq
    exact List.take_append_of_le_length (by omega)
  have hm : told.zipIdx.map (fun q => (q.1, (told ++ [p]).take q.2)) = withEarlier told :=
    List.map_congr_left fun q hq => by rw [ht q hq]
  rw [withEarlier, List.zipIdx_append, List.map_append, hm]
  simp

theorem isNews_iff_not_leads {p : Text × Text} :
    IsNews key facts (p, told) ↔
      ¬ Leads key (facts.tellAll key told).1 (key p.1) (key p.2) := by
  rw [leads_tellAll, not_or, IsNews, Leads]
  simp

theorem keys_tellAll :
    (facts.tellAll key told).1.keys = facts.keys ++ newSubjects key facts told := by
  induction told using List.reverseRecOn with
  | nil => simp [tellAll, newSubjects, withEarlier]
  | append_singleton told p ih =>
    have hk : (facts.keys ++ told.map fun q => key q.1).contains (key p.1) = true ↔
        key p.1 ∈ (facts.tellAll key told).1.keys := by
      rw [List.contains_iff_mem, mem_keys_tellAll, List.mem_append, List.mem_map]
    have hn : newSubjects key facts (told ++ [p]) = newSubjects key facts told ++
        if key p.1 ∈ (facts.tellAll key told).1.keys then [] else [key p.1] := by
      simp only [newSubjects, withEarlier_append_singleton, List.filter_append, List.map_append,
        List.filter_singleton, ← hk]
      cases (facts.keys ++ told.map fun q => key q.1).contains (key p.1) <;> rfl
    rw [tellAll_append_singleton, keys_tell, ih, hn, List.append_assoc, ← ih]

theorem attributes_tellAll : (facts.tellAll key told).1.attributes k =
    facts.attributes k ++ newAttributes key facts told k := by
  induction told using List.reverseRecOn with
  | nil => simp [tellAll, newAttributes, withEarlier]
  | append_singleton told p ih =>
    have hn : newAttributes key facts (told ++ [p]) k = newAttributes key facts told k ++
        if key p.1 = k ∧ IsNews key facts (p, told) then [p.2] else [] := by
      simp only [newAttributes, withEarlier_append_singleton, List.filter_append, List.map_append]
      by_cases hp : key p.1 = k ∧ IsNews key facts (p, told) <;> simp [hp]
    rw [tellAll_append_singleton, attributes_tell, ih, hn, List.append_assoc]
    by_cases hk : key p.1 = k
    · subst hk
      simp [isNews_iff_not_leads]
    · simp [hk]

theorem isNews_tellAll : (facts.tellAll key told).2.map Outcome.isNews =
    (withEarlier told).map fun p => decide (IsNews key facts p) := by
  induction told using List.reverseRecOn with
  | nil => rfl
  | append_singleton told p ih =>
    have ho : ((facts.tellAll key told).1.outcome key p.1 p.2).isNews =
        decide (IsNews key facts (p, told)) := by
      rw [Bool.eq_iff_iff, isNews_outcome, decide_eq_true_iff, isNews_iff_not_leads]
    simp [tellAll_append_singleton, withEarlier_append_singleton, ih, ho]

theorem entries_eq_map_keys (facts : Facts) :
    facts.entries = facts.keys.map fun k => (k, facts.attributes k) := by
  rw [OrderedMap.keys, List.map_map]
  refine (List.map_id _).symm.trans (List.map_congr_left fun e he => ?_)
  have hg : facts.get? e.1 = some e.2 := OrderedMap.get?_eq_some_iff.mpr he
  simp [Facts.attributes, hg]

/-- What a sequence of facts comes to. Known subjects keep their places, and new ones follow; each
has its old attributes, and behind them the news. A fact that was told before changes nothing, and
none changes anything of another subject. -/
theorem tellAll_exact (key : Text → Text) (facts : Facts) (told : List (Text × Text)) :
    let after := (facts.tellAll key told).1
    let outcomes := (facts.tellAll key told).2
    after.entries = (facts.keys ++ newSubjects key facts told).map
      (fun k => (k, facts.attributes k ++ newAttributes key facts told k)) ∧
    outcomes.map Outcome.isNews =
      (withEarlier told).map (fun p => decide (IsNews key facts p)) ∧
    (∀ p ∈ told, ∀ s a, key s = key p.1 → key a = key p.2 →
      after.outcome key s a = .known ∧ after.tell key s a = after) ∧
    ∀ s a k, k ≠ key s → (after.tell key s a).get? k = after.get? k := by
  intro after outcomes
  refine ⟨?_, isNews_tellAll, ?_, fun s a k => get?_tell_of_ne⟩
  · rw [entries_eq_map_keys, keys_tellAll]
    simp only [after, attributes_tellAll]
  · intro p hp s a hs ha
    have hl : Leads key after (key s) (key a) :=
      leads_tellAll.mpr (.inr ⟨p, hp, hs.symm, ha.symm⟩)
    obtain ⟨hn, -⟩ | ⟨-, ho, ht⟩ := tell_cases key after s a
    · exact absurd hl hn
    · exact ⟨ho, ht⟩

/-- A subject without attributes is in its place from the start, and old attributes stay even where
two have one key. -/
theorem tellAll_exact_pesce :
    let facts : Facts := ⟨[("PESCE", []), ("CANE", ["animale", "Animale"])], by decide⟩
    let told : List (Text × Text) :=
      [("gatto", "felino"), ("cane", "ANIMALE"), ("pesce", "muto"), ("Gatto", "Felino")]
    let after := (facts.tellAll plainKey told).1
    after.entries = [(Text.of "PESCE", [Text.of "muto"]),
      (Text.of "CANE", [Text.of "animale", Text.of "Animale"]),
      (Text.of "GATTO", [Text.of "felino"])] ∧
    (facts.tellAll plainKey told).2.map Outcome.isNews = [true, false, true, false] ∧
    after.outcome plainKey "PESCE " "Muto" = .known ∧ after.tell plainKey "PESCE " "Muto" = after := by
  intro facts told after
  obtain ⟨he, ho, hr, -⟩ := tellAll_exact plainKey facts told
  refine ⟨he.trans ?_, ho.trans ?_, ?_⟩
  · decide +kernel
  · decide +kernel
  · exact hr ("pesce", "muto") (by decide) "PESCE " "Muto" (by decide +kernel) (by decide +kernel)

/-! The order of the facts -/

theorem leads_eq_of_perm (h : told.Perm told') :
    Leads key (facts.tellAll key told).1 = Leads key (facts.tellAll key told').1 := by
  funext j k
  rw [eq_iff_iff, leads_tellAll, leads_tellAll]
  simp only [h.mem_iff]

/-- Where the links are the same, questions find the same nodes. -/
theorem perm_map_whatIs {facts' : Facts} (h : Leads key facts = Leads key facts')
    (subject : Text) :
    ((facts.whatIs key subject).map key).Perm ((facts'.whatIs key subject).map key) := by
  have hn := nodup_map_firstMentions key []
  refine (List.perm_ext_iff_of_nodup (hn _) (hn _)).mpr fun n => ?_
  rw [← whatIs, ← whatIs, mem_map_whatIs, mem_map_whatIs, h]

theorem perm_whoIs {facts' : Facts} (h : Leads key facts = Leads key facts') (attr : Text) :
    (facts.whoIs key attr).Perm (facts'.whoIs key attr) := by
  refine (List.perm_ext_iff_of_nodup (nodup_whoIs _ _ _) (nodup_whoIs _ _ _)).mpr fun n => ?_
  rw [mem_whoIs, mem_whoIs, h]

/-- In whatever order facts are told, they have the same subjects, and each question finds the same
nodes. Only their order and the way in which they are written can differ. -/
theorem tellAll_perm (key : Text → Text) (facts : Facts) (h : told.Perm told') :
    let after := (facts.tellAll key told).1
    let after' := (facts.tellAll key told').1
    (∀ k, k ∈ after.keys ↔ k ∈ after'.keys) ∧
    (∀ phrase, ∃ found found', after.whatIs? key .guarded phrase = some found ∧
      after'.whatIs? key .guarded phrase = some found' ∧
      (∀ n, n ∈ found.map key ↔ n ∈ found'.map key) ∧ found.length = found'.length) ∧
    ∀ phrase, ∃ found found', after.whoIs? key .guarded phrase = some found ∧
      after'.whoIs? key .guarded phrase = some found' ∧ ∀ k, k ∈ found ↔ k ∈ found' := by
  have hl : Leads key (facts.tellAll key told).1 = Leads key (facts.tellAll key told').1 :=
    leads_eq_of_perm h
  refine ⟨?_, ?_, ?_⟩
  · intro k
    rw [mem_keys_tellAll, mem_keys_tellAll]
    simp only [h.mem_iff]
  · intro phrase
    have hp := perm_map_whatIs hl phrase
    exact ⟨_, _, rfl, rfl, fun n => hp.mem_iff, by simpa using hp.length_eq⟩
  · intro phrase
    exact ⟨_, _, rfl, rfl, fun k => (perm_whoIs hl phrase).mem_iff⟩

/-- Of two spellings the one that is told first is kept. -/
theorem tellAll_perm_felino :
    let told : List (Text × Text) :=
      [("gatto", "Felino"), ("felino", "gatto"), ("gatto", "FELINO")]
    let after := (Facts.tellAll plainKey OrderedMap.empty told).1
    let after' := (Facts.tellAll plainKey OrderedMap.empty told.reverse).1
    (∀ k, k ∈ after.keys ↔ k ∈ after'.keys) ∧
    after.whatIs? plainKey .guarded "gatto" = some [Text.of "Felino", "gatto"] ∧
    after'.whatIs? plainKey .guarded "gatto" = some [Text.of "FELINO", "gatto"] ∧
    ∀ n, n ∈ [Text.of "Felino", "gatto"].map plainKey ↔
      n ∈ [Text.of "FELINO", "gatto"].map plainKey := by
  intro told after after'
  obtain ⟨hk, hw, -⟩ := tellAll_perm plainKey OrderedMap.empty told.reverse_perm.symm
  obtain ⟨found, found', hf, hf', hn, -⟩ := hw "gatto"
  have h : after.whatIs? plainKey .guarded "gatto" = some [Text.of "Felino", "gatto"] := by
    decide +kernel
  have h' : after'.whatIs? plainKey .guarded "gatto" = some [Text.of "FELINO", "gatto"] := by
    decide +kernel
  obtain rfl := Option.some.inj (hf.symm.trans h)
  obtain rfl := Option.some.inj (hf'.symm.trans h')
  exact ⟨hk, h, h', hn⟩

end Syllogism.Facts
