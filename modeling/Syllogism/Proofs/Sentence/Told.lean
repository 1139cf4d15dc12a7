import Syllogism.Proofs.Facts.Told
import Syllogism.Proofs.Notebook
import Syllogism.Proofs.Text.Marks

/-! What sentences tell, and what holds of the facts after them, also when they were saved. -/

namespace Syllogism

namespace Lexicon

variable {l : Lexicon} {sentence t subject object : Text}

theorem sides?_eq_some (h : l.sides? t = some (subject, object)) :
    (∃ i, subject = Text.trim (t.take i) ∧ subject ≠ []) ∧
      ∃ i, object = Text.trim (t.drop i) ∧ object ≠ [] := by
  unfold sides? at h
  split at h
  · cases h
  · rename_i i copula _
    simp only at h
    split at h
    · cases h
    · rename_i he
      obtain ⟨rfl, rfl⟩ := Prod.mk.inj (Option.some.inj h)
      rw [Bool.or_eq_true, not_or] at he
      refine ⟨⟨i, rfl, ?_⟩, i + copula.length, rfl, ?_⟩
      · exact fun hs => he.1 (hs ▸ rfl)
      · exact fun ho => he.2 (ho ▸ rfl)

theorem sides?_of_reading? (h : l.reading? sentence = some (.statement subject object)) :
    l.sides? (Text.stripMarks sentence) = some (subject, object) := by
  rcases Option.or_eq_some_iff.mp h with h | ⟨-, h⟩
  · obtain ⟨command, -, hr⟩ := Option.map_eq_some_iff.mp h
    cases hr
  · rcases Option.or_eq_some_iff.mp h with h | ⟨-, h⟩
    · obtain ⟨command, -, hr⟩ := Option.map_eq_some_iff.mp h
      cases hr
    · rcases Option.or_eq_some_iff.mp h with h | ⟨-, h⟩
      · unfold whoQuestion? at h
        split at h
        · cases h
        · obtain ⟨word, -, hr⟩ := Option.map_eq_some_iff.mp h
          cases hr
      · obtain ⟨sides, hs, hr⟩ := Option.map_eq_some_iff.mp h
        cases hr
        exact hs

/-- A blank sentence is not understood. -/
theorem not_blank_of_reading? {reading : Reading} (h : l.reading? sentence = some reading) :
    Text.blank sentence = false := by
  refine Bool.eq_false_iff.mpr fun hb => ?_
  have hnone : ∀ openings : List Text, Text.opening? openings [] = none := by
    intro openings
    rw [Text.opening?, List.find?_eq_none]
    intro p _
    cases p <;> simp [Text.opensWith]
  have hs : l.sides? [] = none := by
    have hf : Text.find? l.copulas 1 [] = none := by
      rw [Text.find?, List.findSome?_eq_none_iff]
      intro p _
      cases p <;> rfl
    rw [sides?, hf]
  rw [reading?, Text.stripMarks_of_blank hb, farewell?, question?, whoQuestion?, statement?, hnone,
    hnone, hs] at h
  cases h

theorem key_ne_nil_of_statement (h : l.reading? sentence = some (.statement subject object)) :
    l.key subject ≠ [] := by
  obtain ⟨i, rfl, hn⟩ := (sides?_eq_some (sides?_of_reading? h)).1
  apply key_ne_nil
  rw [(Text.trimmed_trim _).trim_eq]
  exact hn

/-- What is told of a subject is a phrase. It has no mark behind it since the sentence has none. -/
theorem isPhrase_of_statement (h : l.reading? sentence = some (.statement subject object)) :
    object.IsPhrase := by
  obtain ⟨i, rfl, hn⟩ := (sides?_eq_some (sides?_of_reading? h)).2
  refine ⟨hn, Text.trimmed_trim _, ?_⟩
  intro c hc
  have hd : (Text.stripMarks sentence).drop i ≠ [] := by
    intro hd
    rw [hd] at hn
    exact hn rfl
  have hs := Text.getLast?_of_suffix (List.drop_suffix i _) hd
  obtain ⟨b, hb⟩ := Option.ne_none_iff_exists'.mp (mt List.getLast?_eq_none_iff.mp hd)
  have hm := Text.of_getLast?_stripMarks (hs.symm.trans hb)
  rw [Text.getLast?_trim hb hm.1 hn] at hc
  obtain rfl := Option.some.inj hc
  exact hm.2

end Lexicon

namespace Conversation

variable {l : Lexicon} {manner : Facts.Manner} {facts : Facts}

/-- A sentence is blank or not understood, and changes nothing, or it is responded to as it is
understood. -/
theorem respond_cases (c : Conversation) (facts : Facts) (sentence : Text) :
    ((c.respond facts sentence).facts = facts ∧ (c.respond facts sentence).farewell = false ∧
      ((c.respond facts sentence).answer = some c.lexicon.replies.empty ∨
        (c.respond facts sentence).answer = some c.lexicon.replies.notUnderstood)) ∨
    ∃ reading, c.lexicon.reading? sentence = some reading ∧
      (c.respond facts sentence).facts = (c.respondTo facts reading).facts ∧
      (c.respond facts sentence).farewell = (c.respondTo facts reading).farewell ∧
      (c.respond facts sentence).answer = (c.respondTo facts reading).answer := by
  unfold respond
  split
  · exact .inl ⟨rfl, rfl, .inl rfl⟩
  · cases h : c.lexicon.reading? sentence with
    | none => exact .inl ⟨rfl, rfl, .inr rfl⟩
    | some reading => exact .inr ⟨reading, rfl, rfl, rfl, rfl⟩

theorem respond_of_reading? {c : Conversation} {sentence : Text} {reading : Reading}
    (h : c.lexicon.reading? sentence = some reading) (facts : Facts) :
    c.respond facts sentence = { c.respondTo facts reading with
      events := .understood reading sentence :: (c.respondTo facts reading).events } := by
  rw [respond, if_neg (by simp [Lexicon.not_blank_of_reading? h]), h]

/-- Nothing but a statement changes facts, and it does so as it is told. -/
theorem facts_respond_cases (c : Conversation) (facts : Facts) (sentence : Text) :
    (∃ subject object, c.lexicon.reading? sentence = some (.statement subject object) ∧
      (c.respond facts sentence).facts = facts.tell c.key subject object) ∨
    (¬ ∃ subject object, c.lexicon.reading? sentence = some (.statement subject object)) ∧
      (c.respond facts sentence).facts = facts := by
  by_cases hs : ∃ subject object, c.lexicon.reading? sentence = some (.statement subject object)
  · obtain ⟨subject, object, hr⟩ := hs
    refine .inl ⟨subject, object, hr, ?_⟩
    rw [respond_of_reading? hr]
    rfl
  · refine .inr ⟨hs, ?_⟩
    rcases respond_cases c facts sentence with ⟨hf, -⟩ | ⟨reading, hr, hf, -⟩ <;> rw [hf]
    cases reading with
    | statement subject object => exact absurd ⟨subject, object, hr⟩ hs
    | farewell command => rfl
    | question subject => rfl
    | whoQuestion who object => rfl

/-- A sentence without an answer changes nothing. -/
theorem facts_respond_of_none {c : Conversation} {sentence : Text}
    (h : (c.respond facts sentence).answer = none) : (c.respond facts sentence).facts = facts := by
  rcases facts_respond_cases c facts sentence with ⟨subject, object, hr, -⟩ | ⟨-, hf⟩
  · rw [respond_of_reading? hr] at h
    cases h
  · exact hf

/-- The facts after some sentences. -/
def after (c : Conversation) (facts : Facts) (sentences : List Text) : Facts :=
  sentences.foldl (fun facts sentence => (c.respond facts sentence).facts) facts

theorem tidy_respond (h : Facts.Tidy l.key facts) (sentence : Text) :
    Facts.Tidy l.key ((Conversation.mk l l.key manner).respond facts sentence).facts := by
  rcases facts_respond_cases ⟨l, l.key, manner⟩ facts sentence with
    ⟨subject, object, hr, hf⟩ | ⟨-, hf⟩ <;> rw [hf]
  · exact h.tell ⟨Lexicon.key_ne_nil_of_statement hr, l.plainKey_key subject⟩
      (Lexicon.isPhrase_of_statement hr)
  · exact h

theorem tidy_after (h : Facts.Tidy l.key facts) (sentences : List Text) :
    Facts.Tidy l.key ((Conversation.mk l l.key manner).after facts sentences) := by
  induction sentences generalizing facts with
  | nil => exact h
  | cons sentence sentences ih => exact ih (tidy_respond h sentence)

/-- Whatever was said since there were no facts, the facts are tidy. They are the same in a notebook
that is opened where they were saved. -/
theorem tidy_and_kept [Host] (l : Lexicon) (manner : Facts.Manner) (sentences : List Text) :
    let facts := (Conversation.mk l l.key manner).after OrderedMap.empty sentences
    Facts.Tidy l.key facts ∧
    ∀ (t : Text) (mode : Facts.Mode) (w w' : World),
      (Notebook.save ⟨Path.ofText t, l, mode, facts⟩).perform w = (.ok (), w') →
      ∀ mode', ∃ n w'', (Notebook.openAt t l mode').perform w' = (.ok n, w'') ∧
        n.facts = facts ∧ Facts.Tidy l.key n.facts := by
  intro facts
  have h : Facts.Tidy l.key facts := tidy_after Facts.tidy_empty sentences
  refine ⟨h, ?_⟩
  intro t mode w w' hs mode'
  obtain ⟨hn, hh, -⟩ := Notebook.of_perform_writeFacts hs
  obtain ⟨w'', ho⟩ :=
    Notebook.exists_perform_openAt l mode' hn (hh (Path.dot_notMem_ofText t))
  exact ⟨_, w'', ho, rfl, h⟩

section

open scoped Host

/-- The second sentence tells nothing new, since the capitals of ß are SS. -/
theorem tidy_and_kept_kiss :
    let facts := (Conversation.mk Lexicon.italian Lexicon.italian.key .guarded).after
      OrderedMap.empty ["Il bacio è  un Kuß ?.", "un BACIO è KUSS", "bacio è  bello."]
    facts.attributes "BACIO" = [Text.of "un Kuß", "bello"] ∧
    ∃ n w w'', (Notebook.save ⟨Path.ofText "b.js", Lexicon.italian, .guarded, facts⟩).perform
        (World.on Disk.empty) = (.ok (), w) ∧
      (Notebook.openAt "b.js" Lexicon.italian .unguarded).perform w = (.ok n, w'') ∧
      n.facts = facts ∧ Facts.Tidy Lexicon.italian.key n.facts := by
  intro facts
  have hs : ((Notebook.save ⟨Path.ofText "b.js", Lexicon.italian, .guarded, facts⟩).perform
      (World.on Disk.empty)).1 = .ok () := by decide +kernel
  obtain ⟨w, hw⟩ := Act.exists_perform hs
  obtain ⟨-, hk⟩ := tidy_and_kept Lexicon.italian .guarded
    ["Il bacio è  un Kuß ?.", "un BACIO è KUSS", "bacio è  bello."]
  obtain ⟨n, w'', ho, hf, ht⟩ := hk "b.js" .guarded _ w hw .unguarded
  exact ⟨by decide +kernel, n, w, w'', hw, ho, hf, ht⟩

end

end Conversation

end Syllogism
