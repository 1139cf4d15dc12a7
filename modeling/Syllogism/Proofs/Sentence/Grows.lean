import Syllogism.Proofs.Facts.Grows
import Syllogism.Proofs.Sentence.Farewell

/-! Facts grow, by statements only, and a farewell sets off what it does once, whatever that is and
whether it fails. -/

namespace Syllogism

/-- What stands around a conversation: where its notes go, and what a farewell sets off. That may look
at the facts, but has none to give back, and it can fail. -/
structure Surroundings (σ : Type) where
  note : List Event → σ → σ
  goodbye : Facts → σ → Except Failure Unit × σ

/-- What a sentence leaves. -/
structure Turn (σ : Type) where
  result : Except Failure Text
  facts : Facts
  state : σ

/-- The same surroundings, which count how often a farewell calls for them. -/
def Surroundings.counted {σ : Type} (around : Surroundings σ) : Surroundings (σ × Nat) where
  note events s := (around.note events s.1, s.2)
  goodbye facts s := ((around.goodbye facts s.1).1, (around.goodbye facts s.1).2, s.2 + 1)

namespace Conversation

variable {σ : Type} {c : Conversation} {facts : Facts} {sentence subject object : Text}

theorem grows_respond (c : Conversation) (facts : Facts) (sentence : Text) :
    facts.Grows (c.respond facts sentence).facts := by
  rcases facts_respond_cases c facts sentence with ⟨subject, object, -, hf⟩ | ⟨-, hf⟩ <;> rw [hf]
  · exact Facts.grows_tell c.key facts subject object
  · exact .refl facts

theorem grows_after (c : Conversation) (facts : Facts) (sentences : List Text) :
    facts.Grows (c.after facts sentences) := by
  induction sentences generalizing facts with
  | nil => exact .refl facts
  | cons sentence sentences ih => exact (grows_respond c facts sentence).trans (ih _)

/-- Answers a sentence where something stands around the conversation. The facts are written in their
place, so a failure leaves them as they are then. -/
def process (c : Conversation) (around : Surroundings σ) (facts : Facts) (s : σ) (sentence : Text) :
    Turn σ :=
  let r := c.respond facts sentence
  let s := around.note r.events s
  let (done, s) := if r.farewell then around.goodbye facts s else (.ok (), s)
  ⟨done.bind fun _ => r.answer.elim (.error .deepQuestion) .ok, r.facts, s⟩

theorem process_of_farewell (around : Surroundings σ) (s : σ)
    (h : (c.respond facts sentence).farewell = true) :
    let done := around.goodbye facts (around.note (c.respond facts sentence).events s)
    c.process around facts s sentence =
      ⟨done.1.map fun _ => c.lexicon.replies.goodbye, (c.respond facts sentence).facts, done.2⟩ := by
  obtain ⟨-, ha⟩ := respond_farewell h
  simp only [process, h, ha, if_pos]
  rcases around.goodbye facts (around.note (c.respond facts sentence).events s) with
    ⟨f | u, s'⟩ <;> rfl

theorem process_of_not_farewell (around : Surroundings σ) (s : σ)
    (h : (c.respond facts sentence).farewell = false) :
    c.process around facts s sentence =
      ⟨(c.respond facts sentence).answer.elim (.error .deepQuestion) .ok,
        (c.respond facts sentence).facts, around.note (c.respond facts sentence).events s⟩ := by
  rw [process, h]
  rfl

theorem facts_process (c : Conversation) (around : Surroundings σ) (facts : Facts) (s : σ)
    (sentence : Text) :
    (c.process around facts s sentence).facts = (c.respond facts sentence).facts := rfl

/-- What a farewell sets off is called for once where one is said, and the rest does not depend on
who counts. -/
theorem process_counted (c : Conversation) (around : Surroundings σ) (facts : Facts) (s : σ) (n : Nat)
    (sentence : Text) :
    let t := c.process around facts s sentence
    c.process around.counted facts (s, n) sentence = ⟨t.result, t.facts,
      (t.state, if (c.respond facts sentence).farewell then n + 1 else n)⟩ := by
  cases hf : (c.respond facts sentence).farewell with
  | false =>
    rw [process_of_not_farewell _ _ hf, process_of_not_farewell _ _ hf]
    rfl
  | true =>
    rw [process_of_farewell _ _ hf, process_of_farewell _ _ hf]
    rfl

/-- Only a question that goes too deep has no answer. -/
theorem manner_eq_of_none (h : (c.respond facts sentence).answer = none) :
    ∃ room, c.manner = .unguarded room := by
  cases hm : c.manner with
  | unguarded room => exact ⟨room, rfl⟩
  | guarded =>
    rcases respond_cases c facts sentence with ⟨-, -, ha | ha⟩ | ⟨reading, -, -, -, ha⟩
    · rw [h] at ha
      cases ha
    · rw [h] at ha
      cases ha
    · rw [h] at ha
      cases reading with
      | farewell command => cases ha
      | statement subject object => cases ha
      | question subject =>
        rw [respondTo, hm] at ha
        cases ha
      | whoQuestion who object =>
        rw [respondTo, hm] at ha
        cases ha

/-- The two ways to fail. -/
theorem of_process_error {around : Surroundings σ} {s : σ} {f : Failure}
    (h : (c.process around facts s sentence).result = .error f) :
    (c.process around facts s sentence).facts = facts ∧
      ((∃ room, c.manner = .unguarded room) ∧ f = .deepQuestion ∨
        ∃ s', (around.goodbye facts s').1 = .error f) := by
  rw [facts_process]
  cases hf : (c.respond facts sentence).farewell with
  | false =>
    rw [process_of_not_farewell around s hf] at h
    cases ha : (c.respond facts sentence).answer with
    | some answer =>
      rw [ha] at h
      cases h
    | none =>
      rw [ha] at h
      obtain rfl := Except.error.inj h
      exact ⟨facts_respond_of_none ha, .inl ⟨manner_eq_of_none ha, rfl⟩⟩
  | true =>
    rw [process_of_farewell around s hf] at h
    exact ⟨(respond_farewell hf).1, .inr ⟨_, map_eq_error.mp h⟩⟩

/-- The facts, and what stands around, after some sentences, each of which may fail. -/
def processAll (c : Conversation) (around : Surroundings σ) (facts : Facts) (s : σ)
    (sentences : List Text) : Facts × σ :=
  sentences.foldl
    (fun fs sentence =>
      let t := c.process around fs.1 fs.2 sentence
      (t.facts, t.state)) (facts, s)

theorem facts_processAll (c : Conversation) (around : Surroundings σ) (facts : Facts) (s : σ)
    (sentences : List Text) :
    (c.processAll around facts s sentences).1 = c.after facts sentences := by
  induction sentences generalizing facts s with
  | nil => rfl
  | cons sentence sentences ih =>
    rw [processAll, List.foldl_cons, ← processAll, ih, facts_process]
    rfl

/-- Facts change by a statement only, and then as it is told. Where a farewell is said, what it sets
off is called for once, and nowhere else. A failure leaves the facts as they were. So along a run,
whatever fails in it, subjects keep their places, what was told of them stays in front, and no
question loses an answer. -/
theorem grows_by_statements (c : Conversation) (around : Surroundings σ) (facts : Facts) (s : σ) :
    (∀ sentence,
      let t := c.process around facts s sentence
      ((∃ subject object, Text.blank sentence = false ∧
          c.lexicon.reading? sentence = some (.statement subject object) ∧
          t.facts = facts.tell c.key subject object) ∨
        (¬ ∃ subject object, Text.blank sentence = false ∧
          c.lexicon.reading? sentence = some (.statement subject object)) ∧ t.facts = facts) ∧
      (∀ n, ∃ n', c.process around.counted facts (s, n) sentence =
          ⟨t.result, t.facts, (t.state, n')⟩ ∧
        ((Text.blank sentence = false ∧
          ∃ command, c.lexicon.reading? sentence = some (.farewell command)) → n' = n + 1) ∧
        (¬ (Text.blank sentence = false ∧
          ∃ command, c.lexicon.reading? sentence = some (.farewell command)) → n' = n)) ∧
      ∀ f, t.result = .error f → t.facts = facts ∧
        ((∃ room, c.manner = .unguarded room) ∧ f = .deepQuestion ∨
          ∃ s', (around.goodbye facts s').1 = .error f)) ∧
    ∀ before later,
      let facts₁ := (c.processAll around facts s before).1
      let facts₂ := (c.processAll around facts s (before ++ later)).1
      facts₁.keys <+: facts₂.keys ∧ (∀ k, facts₁.attributes k <+: facts₂.attributes k) ∧
      (∀ x, ∃ found₁ found₂, facts₁.whatIs? c.key .guarded x = some found₁ ∧
        facts₂.whatIs? c.key .guarded x = some found₂ ∧
        ∀ k ∈ found₁.map c.key, k ∈ found₂.map c.key) ∧
      ∀ x, ∃ found₁ found₂, facts₁.whoIs? c.key .guarded x = some found₁ ∧
        facts₂.whoIs? c.key .guarded x = some found₂ ∧ ∀ k ∈ found₁, k ∈ found₂ := by
  constructor
  · intro sentence t
    refine ⟨?_, fun n => ⟨_, process_counted c around facts s n sentence, ?_⟩, ?_⟩
    · have ht : t.facts = (c.respond facts sentence).facts :=
        facts_process c around facts s sentence
      rw [ht]
      rcases facts_respond_cases c facts sentence with ⟨subject, object, hr, hf⟩ | ⟨hs, hf⟩
      · exact .inl ⟨subject, object, Lexicon.not_blank_of_reading? hr, hr, hf⟩
      · exact .inr ⟨fun ⟨subject, object, _, hr⟩ => hs ⟨subject, object, hr⟩, hf⟩
    · rw [← @respond_farewell_iff facts sentence c]
      exact ⟨fun h => if_pos h, fun h => if_neg h⟩
    · exact fun f hf => of_process_error hf
  · intro before later facts₁ facts₂
    have hg : facts₁.Grows facts₂ := by
      have h := grows_after c (c.after facts before) later
      rw [after, after, ← List.foldl_append, ← after, ← after, ← facts_processAll c around facts s,
        ← facts_processAll c around facts s] at h
      exact h
    exact ⟨hg.keys, hg.attributes, fun x => ⟨_, _, rfl, rfl, hg.whatIs c.key x⟩,
      fun x => ⟨_, _, rfl, rfl, hg.whoIs c.key x⟩⟩

/-- A farewell that fails is counted, a question that goes too deep is not, and both leave the facts to
the statement that follows. -/
theorem grows_by_statements_failures :
    let c : Conversation := ⟨Lexicon.italian, Lexicon.italian.key, .unguarded ⟨900, 900⟩⟩
    let around : Surroundings Unit := ⟨fun _ s => s, fun _ s => (.error .noPath, s)⟩
    let facts := c.after OrderedMap.empty ["A è B", "B è A"]
    let facts' := (c.processAll around facts () ["Ciao", "Cosa sai su A?", "Il gatto è A"]).1
    (c.process around.counted facts ((), 7) "Ciao").state = ((), 8) ∧
    (c.process around.counted facts ((), 7) "Cosa sai su A?").state = ((), 7) ∧
    (c.process around facts () "Ciao").facts = facts ∧
    (c.process around facts () "Cosa sai su A?").facts = facts ∧
    facts'.entries = facts.entries ++ [(Text.of "GATTO", [Text.of "A"])] ∧
    ∃ found₁ found₂, facts.whoIs? c.key .guarded "A" = some found₁ ∧
      facts'.whoIs? c.key .guarded "A" = some found₂ ∧ ∀ k ∈ found₁, k ∈ found₂ := by
  intro c around facts facts'
  obtain ⟨hone, hrun⟩ := grows_by_statements c around facts ()
  obtain ⟨-, hciao, hbye⟩ := hone "Ciao"
  obtain ⟨-, hcosa, hdeep⟩ := hone "Cosa sai su A?"
  obtain ⟨n, hn, hcount, -⟩ := hciao 7
  obtain ⟨m, hm, -, hcount'⟩ := hcosa 7
  have hr : c.lexicon.reading? "Ciao" = some (.farewell "CIAO") := by decide +kernel
  have hr' : c.lexicon.reading? "Cosa sai su A?" = some (.question "A") := by decide +kernel
  obtain rfl := hcount ⟨by decide, _, hr⟩
  obtain rfl := hcount' fun ⟨_, command, hf⟩ => by rw [hr'] at hf; cases hf
  have he : (c.process around facts () "Ciao").result = .error .noPath := by decide +kernel
  have he' : (c.process around facts () "Cosa sai su A?").result = .error .deepQuestion := by
    decide +kernel
  have hentries : facts'.entries = facts.entries ++ [(Text.of "GATTO", [Text.of "A"])] := by
    decide +kernel
  exact ⟨by rw [hn], by rw [hm], (hbye _ he).1, (hdeep _ he').1, hentries, (hrun [] _).2.2.2 "A"⟩

end Conversation

/-! Notebooks -/

/-- What stands around the conversation of a notebook is the world, and a farewell saves. -/
def Notebook.around [Host] (n : Notebook) : Surroundings World where
  note events w := ((Act.noteAll events).perform w).2
  goodbye facts w := (writeFacts facts n.path).perform w

theorem Notebook.perform_answered (n : Notebook) (facts : Facts) (answer? : Option Text) (w : World) :
    (match answer? with
      | none => Act.fail .deepQuestion
      | some answer => (return ({ n with facts := facts }, answer) : Act (Notebook × Text))).perform w =
      ((answer?.elim (Except.error Failure.deepQuestion) Except.ok).map fun a =>
        ({ n with facts := facts }, a), w) := by
  cases answer? <;> rfl

/-- A notebook answers as its conversation does with that around it. -/
theorem Notebook.perform_answer [Host] (n : Notebook) (sentence : Text) (w : World) :
    (n.answer sentence).perform w =
      let t := n.conversation.process n.around n.facts w sentence
      (t.result.map fun a => ({ n with facts := t.facts }, a), t.state) := by
  have hnote : ∀ events, (Act.noteAll events).perform w = (.ok (), n.around.note events w) :=
    fun _ => rfl
  simp only [Notebook.answer]
  rw [Act.perform_bind, hnote]
  cases hf : (n.conversation.respond n.facts sentence).farewell with
  | false =>
    rw [Conversation.process_of_not_farewell _ _ hf]
    exact n.perform_answered _ _ _
  | true =>
    obtain ⟨hfacts, ha⟩ := Conversation.respond_farewell hf
    have hsave : ∀ w, n.save.perform w = n.around.goodbye n.facts w := fun _ => rfl
    rw [Conversation.process_of_farewell _ _ hf, if_pos rfl, ha, hfacts]
    dsimp only
    rw [Act.perform_bind, hsave]
    rcases n.around.goodbye n.facts
      (n.around.note (n.conversation.respond n.facts sentence).events w) with ⟨f | u, w₁⟩ <;> rfl

end Syllogism
