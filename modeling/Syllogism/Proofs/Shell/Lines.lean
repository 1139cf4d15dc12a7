import Syllogism.Proofs.Shell.Printed

/-! A chat over lines and a talk over the same sentences: both give the same answers, end in the same
way, and leave the same on the disk, whatever fails on the way. -/

namespace Syllogism

namespace Text

theorem lines_line_append {t : Text} (h : CodePoint.char '\n' ∉ t) (rest : Text) :
    lines (line t ++ rest) = t :: lines rest := by
  induction t with
  | nil => rfl
  | cons c t ih =>
    obtain ⟨hc, ht⟩ := not_or.mp (mt List.mem_cons.mpr h)
    have ih := ih ht
    rw [line, List.append_assoc] at ih ⊢
    rw [List.cons_append, lines, ih]
    exact fun e => hc e.symm

/-- Sentences without line feeds are the lines of the text with one on each. -/
theorem lines_flatMap_line {ts : List Text} (h : ∀ t ∈ ts, CodePoint.char '\n' ∉ t) :
    lines (ts.flatMap line) = ts := by
  induction ts with
  | nil => rfl
  | cons t ts ih =>
    obtain ⟨ht, hts⟩ := List.forall_mem_cons.mp h
    rw [List.flatMap_cons, lines_line_append ht, ih hts]

end Text

namespace Shell

open Act

section

variable {n : Notebook} {sentence t : Text} {sentences rest answers : List Text} {w : World}
  {d : Disk} {setting : Setting}

/-- An answer in a chat, behind its prompt. -/
def echo (a : Text) : Text := prompt ++ Text.line a

/-- What a chat may print behind its answers: the prompt for a line that has no answer, or that never
came, and the end of that line. -/
def ChatTail (tail : Text) : Prop := tail = [] ∨ tail = prompt ∨ tail = prompt ++ Text.line []

/-- How a talk and a chat come out together, which had printed `s` and `t` before: they differ only
in what is printed, which are the same first ones of the answers, and all of them if the end is
well. -/
structure Together (answers : List Text) (s t : Text)
    (told chatted : Except Failure Notebook × World) : Prop where
  same : chatted = (told.1, { told.2 with out := chatted.2.out })
  printed : ∃ given tail, told.2.out = s ++ given.flatMap Text.line ∧
    chatted.2.out = t ++ given.flatMap echo ++ tail ∧ ChatTail tail ∧ given <+: answers ∧
    ∀ n, told.1 = .ok n → given = answers

/-- After an answer that both have given they go on together. -/
theorem Together.cons {a s t : Text} {told chatted : Except Failure Notebook × World}
    (h : Together answers (s ++ Text.line a) (t ++ echo a) told chatted) :
    Together (a :: answers) s t told chatted := by
  obtain ⟨hsame, given, tail, hs, ht, htail, hprefix, hall⟩ := h
  refine ⟨hsame, a :: given, tail, ?_, ?_, htail, List.cons_prefix_cons.mpr ⟨rfl, hprefix⟩, ?_⟩
  · rw [hs, List.flatMap_cons, List.append_assoc]
  · rw [ht, List.flatMap_cons, List.append_assoc, List.append_assoc, List.append_assoc,
      List.append_assoc]
  · intro n hn
    rw [hall n hn]

variable [Host]

theorem perform_chat_nil (n : Notebook) (w : World) (t : Text) :
    (chat none n []).perform { w with out := t } =
      (chatEnd none n >>= fun _ => pure n).perform { w with out := t ++ prompt } := rfl

theorem perform_chat_cons (n : Notebook) (sentence : Text) (rest : List Text) (w : World)
    (t : Text) :
    (chat none n (sentence :: rest)).perform { w with out := t } =
      (chatLine n sentence >>= fun r => if r.2 then return r.1 else chat none r.1 rest).perform
        { w with out := t ++ prompt } := rfl

/-- At the end of the sentences a talk and a chat save, and neither has another answer. -/
theorem together_nil (n : Notebook) (w : World) (s t : Text) :
    Together [] s t ((tell n []).perform { w with out := s })
      ((chat none n []).perform { w with out := t }) := by
  rw [perform_chat_nil, tell, chatEnd, bind_assoc, perform_bind, perform_bind]
  have hquiet := Notebook.quiet_save n
  rcases hs : n.save.perform w with ⟨f | u, w₁⟩
  · rw [hquiet.perform hs s, hquiet.perform hs]
    refine ⟨rfl, [], prompt, (List.append_nil s).symm, ?_, .inr (.inl rfl), List.nil_prefix, ?_⟩
    · rw [List.flatMap_nil, List.append_nil]
    · rintro _ ⟨⟩
  · rw [hquiet.perform hs s, hquiet.perform hs]
    refine ⟨rfl, [], prompt ++ Text.line [], (List.append_nil s).symm, ?_, .inr (.inr rfl),
      List.nil_prefix, fun _ _ => rfl⟩
    rw [List.flatMap_nil, List.append_nil, ← List.append_assoc]
    rfl

theorem together (n : Notebook) (sentences : List Text) (w : World) (s t : Text) :
    Together (n.conversation.answers n.facts sentences) s t
      ((tell n sentences).perform { w with out := s })
      ((chat none n sentences).perform { w with out := t }) := by
  -- both start from one world, but for what they have printed, and each line leaves them there
  induction sentences generalizing n w s t with
  | nil => exact together_nil n w s t
  | cons sentence rest ih =>
    rw [perform_chat_cons, tell, perform_bind, perform_bind]
    obtain ⟨f, w₁, hl⟩ | ⟨a, ended, w₁, ha, hended, hl⟩ := perform_chatLine_cases n sentence w
    · rw [hl, hl]
      refine ⟨rfl, [], prompt, (List.append_nil s).symm, ?_, .inr (.inl rfl), List.nil_prefix, ?_⟩
      · rw [List.flatMap_nil, List.append_nil]
      · rintro _ ⟨⟩
    · rw [hl, hl]
      have hecho : t ++ prompt ++ Text.line a = t ++ echo a := List.append_assoc _ _ _
      rw [hecho]
      cases ended with
      | true =>
        rw [Conversation.answers_cons_of_goodbye rest ha (hended.mp rfl)]
        refine Together.cons ⟨rfl, [], [], ?_, ?_, .inl rfl, List.nil_prefix, fun _ _ => rfl⟩
        · exact (List.append_nil _).symm
        · rw [List.flatMap_nil, List.append_nil, List.append_nil]
          rfl
      | false =>
        rw [Conversation.answers_cons_of_ne rest ha (mt hended.mpr Bool.false_ne_true)]
        exact (ih { n with facts := (n.conversation.respond n.facts sentence).facts } w₁ _ _).cons

/-! The runs -/

/-- Two runs that differ in nothing but what they print. -/
structure SameButOut (r r' : Run) : Prop where
  status : r'.status = r.status
  messages : r'.messages = r.messages
  disk : r'.disk = r.disk

/-- Commands that come out in the same way, but for what is printed, make runs that do. -/
theorem run_same_of_perform {c c' : Command} {a a' : List Text} (i i' : Input) {t : Text}
    {e : Except Failure Nat} (h : requestOf a = .ok (.command setting c))
    (h' : requestOf a' = .ok (.command setting c'))
    (hr : (c.run setting i).perform (World.on d) = (e, w))
    (hr' : (c'.run setting i').perform (World.on d) = (e, { w with out := t })) :
    SameButOut (run d a i) (run d a' i') ∧ (run d a i).out = w.out ∧ (run d a' i').out = t := by
  cases e with
  | error f =>
    rw [run_of_error h hr, run_of_error h' hr']
    split
    · exact ⟨⟨rfl, rfl, rfl⟩, rfl, rfl⟩
    · exact ⟨⟨rfl, rfl, rfl⟩, rfl, rfl⟩
  | ok status =>
    rw [run_of_ok h hr, run_of_ok h' hr']
    exact ⟨⟨rfl, rfl, rfl⟩, rfl, rfl⟩

/-- What a talk does once its notebook is open. -/
theorem Talks.perform_run {input : Input} {c : Command}
    {talk : Notebook → List Text → Act Notebook} (hc : Talks input c sentences talk) {w₁ : World}
    (ho : (openNotebook setting).perform w = (.ok n, w₁)) :
    (c.run setting input).perform w =
      (((talk n sentences).perform w₁).1.map fun _ => 0, ((talk n sentences).perform w₁).2) := by
  rw [hc.run_eq, perform_bind_of_ok ho, perform_bind]
  rcases (talk n sentences).perform w₁ with ⟨f | n', w₂⟩ <;> rfl

/-- A chat that reads the sentences line by line gives the same answers as a talk over them, each
behind a prompt, ends in the same way, and leaves the same disk. The answers are the first ones of
the conversation, all of them if the status is 0, and none if there is no notebook to open. -/
theorem chatted_as_told {told chatted : List Text} (input : Input)
    (ht : requestOf told = .ok (.command setting (.tell sentences)))
    (hc : requestOf chatted = .ok (.command setting .chat))
    (hs : ∀ s ∈ sentences, CodePoint.char '\n' ∉ s) :
    SameButOut (run d told input) (run d chatted (.ofText (sentences.flatMap Text.line))) ∧
    ∃ (given : List Text) (tail : Text),
      (run d told input).out = given.flatMap Text.line ∧
      (run d chatted (.ofText (sentences.flatMap Text.line))).out = given.flatMap echo ++ tail ∧
      ChatTail tail ∧
      match notebookIn d setting with
      | .error _ => given = []
      | .ok n => given <+: n.conversation.answers n.facts sentences ∧
        ((run d told input).status = .ok 0 → given = n.conversation.answers n.facts sentences) := by
  cases hn : notebookIn d setting with
  | error f =>
    obtain ⟨hsame, hout, hout'⟩ :=
      run_same_of_perform input (.ofText (sentences.flatMap Text.line)) ht hc
        (perform_run_of_notebookIn _ _ hn) (perform_run_of_notebookIn _ _ hn)
    exact ⟨hsame, [], [], hout, hout', .inl rfl, rfl⟩
  | ok n =>
    obtain ⟨f, hf, -⟩ | ⟨n', w₁, hn', ho⟩ := perform_openNotebook setting (World.on d)
    · cases hn.symm.trans hf
    obtain rfl := Except.ok.inj (hn.symm.trans hn')
    have hout : w₁.out = [] := (perform_openNotebook_kept ho).2
    obtain ⟨hboth, given, tail, htold, hchatted, htail, hprefix, hall⟩ :=
      together n sentences w₁ [] []
    have hw : { w₁ with out := [] } = w₁ := by rw [← hout]
    rw [hw] at hboth htold hchatted hall
    have htalk : Talks input (.tell sentences) sentences tell := .tell sentences
    have hrt := htalk.perform_run ho
    have hrc : (Command.chat.run setting (.ofText (sentences.flatMap Text.line))).perform
        (World.on d) = (((tell n sentences).perform w₁).1.map fun _ => 0,
          { ((tell n sentences).perform w₁).2 with
            out := ((chat none n sentences).perform w₁).2.out }) := by
      rw [Talks.chat.perform_run ho, Input.ofText, Text.lines_flatMap_line hs, hboth]
    obtain ⟨hsame, htout, hcout⟩ := run_same_of_perform _ _ ht hc hrt hrc
    refine ⟨hsame, given, tail, htout.trans htold, hcout.trans hchatted, htail, hprefix, ?_⟩
    intro hstatus
    obtain ⟨w, hr, -⟩ := exists_perform_of_status ht hstatus
    rw [hrt] at hr
    obtain ⟨n', hn', -⟩ := map_eq_ok.mp (Prod.mk.inj hr).1
    exact hall n' hn'

end

section

open scoped Host

/-- A farewell ends both before the last sentence. -/
theorem chatted_as_told_ciao :
    let sentences : List Text := ["x è y", "ciao", "cosa sai su x"]
    let told := run Disk.empty (Text.of "tell" :: sentences) (.ofText [])
    let chatted := run Disk.empty ["chat"] (.ofText (sentences.flatMap Text.line))
    SameButOut told chatted ∧ told.status = .ok 0 ∧ told.out = Text.of "Ok.\nCiao.\n" ∧
      ∃ tail, chatted.out = Text.of "> Ok.\n> Ciao.\n" ++ tail ∧ ChatTail tail := by
  intro sentences told chatted
  have ht : requestOf (Text.of "tell" :: sentences) =
      .ok (.command plainSetting (.tell sentences)) := by decide +kernel
  have hc : requestOf ["chat"] = .ok (.command plainSetting .chat) := by decide +kernel
  have hs : ∀ s ∈ sentences, CodePoint.char '\n' ∉ s := by decide +kernel
  have hstatus : told.status = .ok 0 := by decide +kernel
  have hn : notebookIn Disk.empty plainSetting =
      .ok ⟨Path.ofText "Sillogismi.js", Lexicon.italian, .guarded, OrderedMap.empty⟩ := rfl
  obtain ⟨hsame, given, tail, hout, hout', htail, hgiven⟩ :=
    chatted_as_told (d := Disk.empty) (.ofText []) ht hc hs
  rw [hn] at hgiven
  have hanswers : given = [Text.of "Ok.", Text.of "Ciao."] :=
    (hgiven.2 hstatus).trans (by decide +kernel)
  rw [hanswers] at hout hout'
  exact ⟨hsame, hstatus, hout, tail, hout', htail⟩

end

end Shell

end Syllogism
