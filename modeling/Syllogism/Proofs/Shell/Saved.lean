import Syllogism.Shell.Command
import Syllogism.Proofs.Notebook
import Syllogism.Proofs.Sentence.Farewell

/-! Facts that were told are in the file when a talk ends well, unless it ends by mistake: at an
answer that only reads like the one to a farewell. -/

namespace Syllogism.Shell

section

variable [Host] {n n' n₁ : Notebook} {sentence : Text} {sentences rest : List Text} {d d' : Disk}
  {w w' w₁ : World} {u : Unit} {ended : Bool}

/-- How a talk ends that starts with this notebook. -/
def ending (n : Notebook) (sentences : List Text) : Ending :=
  (n.conversation.course n.facts sentences).2

/-- What a talk makes of a notebook and of the disk: the facts are those after the last answer, and
its file holds them. After an end by mistake the disk is as it was. -/
structure Leaves (n : Notebook) (sentences : List Text) (d : Disk) (n' : Notebook) (d' : Disk) :
    Prop where
  facts : n' = { n with facts := (n.conversation.course n.facts sentences).1 }
  saved : ending n sentences ≠ .mistaken → d'.Holds n.path n'.facts
  mistaken : ending n sentences = .mistaken → d' = d

theorem Leaves.of_save (hp : Text.of "." ∉ n.path.names)
    (h : n.save.perform w = (.ok u, w')) : Leaves n [] d n w'.disk := by
  refine ⟨rfl, ?_, ?_⟩
  · intro _
    exact Notebook.of_perform_save hp h
  · intro he
    cases he

/-- A line is answered, and what is printed then changes nothing else. -/
theorem of_perform_chatLine_steps
    (h : (chatLine n sentence).perform w = (.ok (n₁, ended), w₁)) :
    ∃ a w₂, (n.answer sentence).perform w = (.ok (n₁, a), w₂) ∧ ended = n₁.isOver a ∧
      w₁.disk = w₂.disk ∧ w₁.notices = w₂.notices := by
  unfold chatLine at h
  obtain ⟨⟨n₂, a⟩, w₂, ha, h⟩ := Act.of_perform_bind h
  obtain ⟨_, w₃, hl, h⟩ := Act.of_perform_bind h
  obtain ⟨he, rfl⟩ := Act.of_perform_pure h
  obtain ⟨rfl, rfl⟩ := Prod.mk.inj he
  obtain ⟨-, rfl⟩ := Act.of_perform_print hl
  exact ⟨a, w₂, ha, rfl, rfl, rfl⟩

theorem of_perform_chatLine (hp : Text.of "." ∉ n.path.names)
    (h : (chatLine n sentence).perform w = (.ok (n₁, ended), w₁)) :
    n₁ = { n with facts := (n.conversation.respond n.facts sentence).facts } ∧
      (ended = true ↔ (n.conversation.respond n.facts sentence).answer =
        some n.conversation.lexicon.replies.goodbye) ∧
      if (n.conversation.respond n.facts sentence).farewell then w₁.disk.Holds n.path n.facts
      else w₁.disk = w.disk := by
  obtain ⟨a, w₂, ha, rfl, hw, -⟩ := of_perform_chatLine_steps h
  obtain ⟨rfl, hanswer, hd⟩ := Notebook.of_perform_answer hp ha
  refine ⟨rfl, ?_, ?_⟩
  · rw [hanswer, Option.some.injEq]
    exact beq_iff_eq
  · rw [hw]
    exact hd

/-- After a goodbye the talk is over. Facts that a farewell saved are those after it, too. -/
theorem Leaves.of_goodbye (rest : List Text)
    (hg : (n.conversation.respond n.facts sentence).answer =
      some n.conversation.lexicon.replies.goodbye)
    (hd : if (n.conversation.respond n.facts sentence).farewell then d'.Holds n.path n.facts
      else d' = d) :
    Leaves n (sentence :: rest) d
      { n with facts := (n.conversation.respond n.facts sentence).facts } d' := by
  have hc := Conversation.course_cons_of_goodbye rest hg
  cases hf : (n.conversation.respond n.facts sentence).farewell with
  | true =>
    rw [hf, if_pos rfl] at hc hd
    have hfacts := (Conversation.respond_farewell hf).1
    refine ⟨by rw [hc], ?_, ?_⟩
    · intro _
      exact hfacts.symm ▸ hd
    · intro he
      rw [ending, hc] at he
      cases he
  | false =>
    rw [hf, if_neg Bool.false_ne_true] at hc hd
    refine ⟨by rw [hc], ?_, ?_⟩
    · intro he
      exact absurd (by rw [ending, hc]) he
    · intro _
      exact hd

/-- After any other answer the rest of the talk follows. -/
theorem Leaves.of_rest
    (hg : (n.conversation.respond n.facts sentence).answer ≠
      some n.conversation.lexicon.replies.goodbye)
    (hr : Leaves { n with facts := (n.conversation.respond n.facts sentence).facts } rest d n' d') :
    Leaves n (sentence :: rest) d n' d' := by
  have hc := Conversation.course_cons_of_ne rest hg
  obtain ⟨hfacts, hsaved, hmistaken⟩ := hr
  refine ⟨by rw [hc]; exact hfacts, ?_, ?_⟩
  · intro he
    rw [ending, hc] at he
    exact hsaved he
  · intro he
    rw [ending, hc] at he
    exact hmistaken he

/-- The first line of a talk ends it, or the rest of the talk follows. -/
theorem Leaves.of_chatLine (hp : Text.of "." ∉ n.path.names)
    (h : (chatLine n sentence).perform w = (.ok (n₁, ended), w₁))
    (hr : n₁.path = n.path →
      if ended then n₁ = n' ∧ w₁.disk = d' else Leaves n₁ rest w₁.disk n' d') :
    Leaves n (sentence :: rest) w.disk n' d' := by
  obtain ⟨rfl, he, hd⟩ := of_perform_chatLine hp h
  have hr := hr rfl
  cases ended with
  | true =>
    obtain ⟨rfl, rfl⟩ := hr
    exact Leaves.of_goodbye rest (he.mp rfl) hd
  | false =>
    have hg := mt he.mpr Bool.false_ne_true
    have hf : (n.conversation.respond n.facts sentence).farewell ≠ true :=
      fun hf => hg (Conversation.respond_farewell hf).2
    rw [if_neg hf] at hd
    rw [← hd]
    exact Leaves.of_rest hg hr

theorem leaves_tell (hp : Text.of "." ∉ n.path.names)
    (h : (tell n sentences).perform w = (.ok n', w')) : Leaves n sentences w.disk n' w'.disk := by
  induction sentences generalizing n w with
  | nil =>
    unfold tell at h
    obtain ⟨_, w₁, hs, h⟩ := Act.of_perform_bind h
    obtain ⟨rfl, rfl⟩ := Act.of_perform_pure h
    exact Leaves.of_save hp hs
  | cons sentence sentences ih =>
    unfold tell at h
    obtain ⟨⟨n₁, ended⟩, w₁, hl, h⟩ := Act.of_perform_bind h
    refine Leaves.of_chatLine hp hl ?_
    intro hpath
    cases ended with
    | true =>
      obtain ⟨rfl, rfl⟩ := Act.of_perform_pure h
      exact ⟨rfl, rfl⟩
    | false => exact ih (hpath ▸ hp) h

theorem of_perform_chatEnd {fault : Option Utf8.Fault}
    (h : (chatEnd fault n).perform w = (.ok u, w')) :
    fault = none ∧ ∃ u₁ w₁, n.save.perform w = (.ok u₁, w₁) ∧ w'.disk = w₁.disk ∧
      w'.notices = w₁.notices := by
  unfold chatEnd at h
  split at h
  · exact (Act.not_perform_fail h).elim
  · obtain ⟨u₁, w₁, hs, hl⟩ := Act.of_perform_bind h
    obtain ⟨-, rfl⟩ := Act.of_perform_print hl
    exact ⟨rfl, u₁, w₁, hs, rfl, rfl⟩

theorem leaves_chat {fault : Option Utf8.Fault} (hp : Text.of "." ∉ n.path.names)
    (h : (chat fault n sentences).perform w = (.ok n', w')) :
    Leaves n sentences w.disk n' w'.disk := by
  induction sentences generalizing n w with
  | nil =>
    unfold chat at h
    obtain ⟨_, w₁, hprompt, h⟩ := Act.of_perform_bind h
    obtain ⟨-, rfl⟩ := Act.of_perform_print hprompt
    obtain ⟨_, w₂, he, h⟩ := Act.of_perform_bind h
    obtain ⟨rfl, rfl⟩ := Act.of_perform_pure h
    obtain ⟨-, u₁, w₃, hs, hd, -⟩ := of_perform_chatEnd he
    rw [hd]
    exact Leaves.of_save hp hs
  | cons sentence sentences ih =>
    unfold chat at h
    obtain ⟨_, w₁, hprompt, h⟩ := Act.of_perform_bind h
    obtain ⟨⟨n₁, ended⟩, w₂, hl, h⟩ := Act.of_perform_bind h
    have hd : w₁.disk = w.disk := by rw [(Act.of_perform_print hprompt).2]
    rw [← hd]
    refine Leaves.of_chatLine hp hl ?_
    intro hpath
    cases ended with
    | true =>
      obtain ⟨rfl, rfl⟩ := Act.of_perform_pure h
      exact ⟨rfl, rfl⟩
    | false => exact ih (hpath ▸ hp) h

/-- The commands that talk, each with its sentences and with its way through them. -/
inductive Talks (input : Input) :
    Command → List Text → (Notebook → List Text → Act Notebook) → Prop where
  | tell (sentences : List Text) : Talks input (.tell sentences) sentences tell
  | chat : Talks input .chat input.lines (chat input.fault)

theorem Talks.leaves {input : Input} {c : Command} {talk : Notebook → List Text → Act Notebook}
    (hc : Talks input c sentences talk) (hp : Text.of "." ∉ n.path.names)
    (h : (talk n sentences).perform w = (.ok n', w')) : Leaves n sentences w.disk n' w'.disk := by
  cases hc with
  | tell => exact leaves_tell hp h
  | chat => exact leaves_chat hp h

/-- A command that talks opens a notebook and goes through the sentences. -/
theorem Talks.run_eq {input : Input} {c : Command}
    {talk : Notebook → List Text → Act Notebook} (hc : Talks input c sentences talk)
    (setting : Setting) :
    c.run setting input = do
      let _ ← talk (← openNotebook setting) sentences
      return 0 := by
  cases hc with
  | tell => rfl
  | chat => rfl

theorem Talks.of_perform_run {input : Input} {c : Command}
    {talk : Notebook → List Text → Act Notebook} (hc : Talks input c sentences talk)
    {setting : Setting} {status : Nat}
    (h : (c.run setting input).perform w = (.ok status, w')) :
    ∃ n w₁ n', (openNotebook setting).perform w = (.ok n, w₁) ∧
      (talk n sentences).perform w₁ = (.ok n', w') := by
  rw [hc.run_eq] at h
  obtain ⟨n, w₁, ho, h⟩ := Act.of_perform_bind h
  obtain ⟨n', w₂, ht, h⟩ := Act.of_perform_bind h
  obtain ⟨-, rfl⟩ := Act.of_perform_pure h
  exact ⟨n, w₁, n', ho, ht⟩

theorem of_perform_openNotebook {setting : Setting} (hl : setting.lexicon.getD [] = [])
    (h : (openNotebook setting).perform w = (.ok n, w')) :
    n.lexicon = Lexicon.italian ∧ n.mode = setting.mode ∧ Text.of "." ∉ n.path.names ∧
      w'.disk = w.disk ∧ (w.disk.Holds n.path n.facts ∨ n.facts = OrderedMap.empty) := by
  have hi : lexiconOf setting.lexicon = pure Lexicon.italian := by
    cases hs : setting.lexicon with
    | none => rfl
    | some file =>
      rw [hs] at hl
      obtain rfl : file = [] := hl
      rfl
  unfold openNotebook at h
  rw [hi] at h
  obtain ⟨l, w₁, hl, h⟩ := Act.of_perform_bind h
  obtain ⟨rfl, rfl⟩ := Act.of_perform_pure hl
  obtain ⟨path, w₂, hpath, h⟩ := Act.of_perform_bind h
  have hw : w₂ = w := by
    cases hs : setting.path with
    | none =>
      rw [hs] at hpath
      cases hpath
    | some p =>
      rw [hs] at hpath
      cases hpath
      rfl
  rw [hw] at h
  obtain ⟨facts, rfl, hd, hf⟩ := Notebook.of_perform_openAt h
  exact ⟨rfl, rfl, Path.dot_notMem_ofText path, hd, hf⟩

/-- When a talk in Italian ends well, its file holds the facts after the last answer, with one
exception: at an end by mistake nothing is saved, so what was told since the start is lost. For that
the answer to a farewell must stand in the facts of the file before. -/
theorem Talks.kept {input : Input} {c : Command} {talk : Notebook → List Text → Act Notebook}
    {setting : Setting} (hc : Talks input c sentences talk) (hl : setting.lexicon.getD [] = [])
    (hm : setting.mode = .guarded)
    (h : (c.run setting input).perform (World.on d) = (.ok 0, w)) :
    ∃ n w₁ n', (openNotebook setting).perform (World.on d) = (.ok n, w₁) ∧
      (talk n sentences).perform w₁ = (.ok n', w) ∧
      n'.facts = (n.conversation.course n.facts sentences).1 ∧
      (w.disk.Holds n.path n'.facts ↔ (ending n sentences = .mistaken → n'.facts = n.facts)) ∧
      (ending n sentences = .mistaken →
        w.disk = d ∧ n.facts.Mentions Lexicon.italianReplies.goodbye) := by
  obtain ⟨n, w₁, n', ho, ht⟩ := hc.of_perform_run h
  obtain ⟨hlexicon, hmode, hp, hd, hf⟩ := of_perform_openNotebook hl ho
  obtain ⟨hfacts, hsaved, hmistaken⟩ := hc.leaves hp ht
  have hi : n.conversation = Conversation.italian := by
    rw [Notebook.conversation, hlexicon, hmode, hm]
    rfl
  have hmentions : ending n sentences = .mistaken →
      n.facts.Mentions Lexicon.italianReplies.goodbye := by
    intro he
    rw [ending, hi] at he
    exact Conversation.mentions_of_course he
  have hdisk : ending n sentences = .mistaken → w.disk = d := by
    intro he
    rw [hmistaken he, hd]
    rfl
  refine ⟨n, w₁, n', ho, ht, by rw [hfacts], ?_, fun he => ⟨hdisk he, hmentions he⟩⟩
  by_cases he : ending n sentences = .mistaken
  · have hheld : w.disk.Holds n.path n.facts := by
      rw [hdisk he]
      refine hf.resolve_right ?_
      intro hempty
      exact Facts.not_mentions_empty (hempty ▸ hmentions he)
    constructor
    · intro hh _
      exact hh.unique hheld
    · intro hn
      rw [hn he]
      exact hheld
  · constructor
    · intro _ hn
      exact absurd hn he
    · intro _
      exact hsaved he

end

def plainSetting : Setting := ⟨some "Sillogismi.js", none, .guarded, false⟩

/-- A disk with a file in which the answer to a farewell is an attribute. -/
def goodbyeDisk : Disk :=
  .ofEntries [("Sillogismi.js", .file (Utf8.encode "\x7b\"A\": [\"Ciao.\"]\x7d"))]

section

open scoped Host

/-- A fact that is told is kept in a new file. It is lost if a question after it is answered with a
goodbye. -/
theorem Talks.kept_or_lost :
    (∃ (n n' : Notebook) (w : World),
      ((Command.tell ["x è y"]).run plainSetting (.ofText [])).perform (World.on Disk.empty) =
        (.ok 0, w) ∧
      n'.facts.attributes "X" = [Text.of "y"] ∧ w.disk.Holds n.path n'.facts) ∧
    ∃ (n n' : Notebook) (w : World),
      ((Command.tell ["x è y", "cosa sai su a"]).run plainSetting (.ofText [])).perform
        (World.on goodbyeDisk) = (.ok 0, w) ∧
      n'.facts.attributes "X" = [Text.of "y"] ∧ ¬ w.disk.Holds n.path n'.facts := by
  constructor
  · have hs : (((Command.tell ["x è y"]).run plainSetting (.ofText [])).perform
        (World.on Disk.empty)).1 = .ok 0 := by decide +kernel
    have hn : ((openNotebook plainSetting).perform (World.on Disk.empty)).1.map (fun n =>
        n.conversation.course n.facts ["x è y"]) =
        .ok (⟨[("X", ["y"])], by decide⟩, .silence) := by decide +kernel
    obtain ⟨w, hr⟩ := Act.exists_perform hs
    obtain ⟨n, w₁, n', ho, ht, hfacts, hkept, -⟩ := (Talks.tell _).kept rfl rfl hr
    rw [ho] at hn
    have hc : n.conversation.course n.facts ["x è y"] = _ := Except.ok.inj hn
    refine ⟨n, n', w, hr, ?_, ?_⟩
    · rw [hfacts, hc]
      rfl
    · rw [hkept, ending, hc]
      intro h
      cases h
  · have hs : (((Command.tell ["x è y", "cosa sai su a"]).run plainSetting (.ofText [])).perform
        (World.on goodbyeDisk)).1 = .ok 0 := by decide +kernel
    have hn : ((openNotebook plainSetting).perform (World.on goodbyeDisk)).1.map (fun n =>
        (n.conversation.course n.facts ["x è y", "cosa sai su a"], n.facts)) =
        .ok ((⟨[("A", ["Ciao."]), ("X", ["y"])], by decide⟩, .mistaken),
          ⟨[("A", ["Ciao."])], by decide⟩) := by decide +kernel
    obtain ⟨w, hr⟩ := Act.exists_perform hs
    obtain ⟨n, w₁, n', ho, ht, hfacts, hkept, -⟩ := (Talks.tell _).kept rfl rfl hr
    rw [ho] at hn
    obtain ⟨hc, hn⟩ := Prod.mk.inj (Except.ok.inj hn)
    refine ⟨n, n', w, hr, ?_, ?_⟩
    · rw [hfacts, hc]
      rfl
    · rw [hkept, hfacts, ending, hc, hn]
      intro h
      exact absurd (h rfl) (by decide)

end

end Syllogism.Shell
