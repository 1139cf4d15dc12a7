import Syllogism.Proofs.Act.Quiet
import Syllogism.Proofs.Sentence.Answers
import Syllogism.Proofs.Shell.Ends

/-! What a talk prints: its answers, one after the other. Nothing else in it prints. -/

namespace Syllogism

open Act

namespace Notebook

theorem quiet_requireWritable (facts : Facts) : Quiet (requireWritable facts) := by
  rw [requireWritable]
  cases facts.gap? with
  | none => exact quiet_pure ()
  | some gap => exact quiet_fail _

theorem quiet_openDraft (path : Path) : Quiet (openDraft path) := by
  rw [openDraft]
  refine quiet_disk_bind fun d => (quiet_submit _).bind fun _ => ?_
  refine (quiet_granted _ _).bind fun _ => ?_
  exact (quiet_setDisk _).bind fun _ => quiet_pure _

theorem quiet_fillDraft (facts : Facts) (path : Path) (draft : Spot) :
    Quiet (fillDraft facts path draft) :=
  (quiet_requireWritable facts).bind fun _ => quiet_disk_bind fun _ =>
    (quiet_setDisk _).bind fun _ => quiet_disk_bind fun _ =>
      (quiet_granted _ _).bind fun _ => quiet_setDisk _

theorem quiet_removeDraft (draft : Spot) : Quiet (removeDraft draft) :=
  quiet_disk_bind fun _ => quiet_setDisk _

theorem quiet_answerWith (n : Notebook) (facts : Facts) (answer? : Option Text) :
    Quiet (match answer? with
      | none => Act.fail .deepQuestion
      | some answer => (return ({ n with facts := facts }, answer) : Act (Notebook × Text))) := by
  cases answer? with
  | none => exact quiet_fail _
  | some answer => exact quiet_pure _

theorem quiet_warn (mode : Facts.Mode) : Quiet (warn mode) := by
  cases mode with
  | guarded => exact quiet_pure ()
  | unguarded => exact quiet_note _

variable [Host]

theorem quiet_makeWay (path : Path) : Quiet (makeWay path) := by
  rw [makeWay]
  refine (quiet_submit _).bind fun _ => quiet_disk_bind fun d => ?_
  refine quiet_guard ?_
  exact (quiet_setDisk _).bind fun _ => quiet_granted _ _

theorem quiet_save (n : Notebook) : Quiet n.save :=
  (quiet_makeWay n.path).bind fun _ => (quiet_openDraft n.path).bind fun draft =>
    ((quiet_fillDraft n.facts n.path draft).clearing (quiet_removeDraft draft)).bind fun _ =>
      quiet_note _

theorem quiet_answer (n : Notebook) (sentence : Text) : Quiet (n.answer sentence) := by
  simp only [answer]
  refine (quiet_noteAll _).bind fun _ => ?_
  split
  · exact (quiet_save n).bind fun _ => quiet_answerWith n _ _
  · exact quiet_answerWith n _ _

theorem quiet_readFacts (path : Path) (mode : Facts.Mode) : Quiet (readFacts path mode) := by
  rw [readFacts]
  refine (quiet_submit _).bind fun _ => quiet_disk_bind fun d => ?_
  refine (quiet_granted _ _).bind fun bytes => ?_
  cases Facts.ofBytes Host.factsRoom bytes with
  | error e => exact quiet_fail _
  | ok facts => exact (quiet_warn mode).bind fun _ => (quiet_note _).bind fun _ => quiet_pure _

theorem quiet_readIf (path : Path) (mode : Facts.Mode) (isThere : Bool) :
    Quiet (if isThere = true then readFacts path mode else do
      note (.startedEmpty path.text)
      warn mode
      return OrderedMap.empty) := by
  split
  · exact quiet_readFacts path mode
  · exact (quiet_note _).bind fun _ => (quiet_warn mode).bind fun _ => quiet_pure _

theorem quiet_openAt (path : Text) (l : Lexicon) (mode : Facts.Mode) :
    Quiet (openAt path l mode) := by
  refine Quiet.bind ?_ fun _ => quiet_pure _
  simp only [readOrEmpty]
  split
  · exact quiet_readIf _ mode false
  · refine quiet_disk_bind fun d => ?_
    exact (quiet_granted _ _).bind fun isThere => quiet_readIf _ mode isThere

end Notebook

namespace Shell

variable [Host] {n n' n₁ : Notebook} {sentence : Text} {sentences : List Text} {w w' w₁ : World}
  {ended : Bool} {setting : Setting}

/-- To open a notebook leaves the disk as it is, and prints nothing. -/
theorem perform_openNotebook_kept (h : (openNotebook setting).perform w = (.ok n, w')) :
    w'.disk = w.disk ∧ w'.out = w.out := by
  unfold openNotebook at h
  obtain ⟨l, w₁, hl, h⟩ := of_perform_bind h
  rw [perform_lexiconOf] at hl
  obtain ⟨-, rfl⟩ := Prod.mk.inj hl
  obtain ⟨path, w₂, hpath, ho⟩ := of_perform_bind h
  have hw : w₂ = w := by
    cases hs : setting.path with
    | none =>
      rw [hs] at hpath
      cases hpath
    | some p =>
      rw [hs] at hpath
      cases hpath
      rfl
  rw [hw] at ho
  obtain ⟨facts, -, hd, -⟩ := Notebook.of_perform_openAt ho
  exact ⟨hd, (Notebook.quiet_openAt path l setting.mode).out ho⟩

/-- Of some lines the first ones are printed, up to one that cannot be. -/
theorem exists_perform_printLines (lines : List Text) (w : World) :
    ∃ (e : Except Failure Unit) (given : List Text), (printLines lines).perform w =
      (e, { w with out := w.out ++ given.flatMap Text.line }) := by
  induction lines generalizing w with
  | nil =>
    refine ⟨.ok (), [], ?_⟩
    rw [List.flatMap_nil, List.append_nil]
    rfl
  | cons t lines ih =>
    rw [printLines, perform_bind, printLine, perform_print]
    cases Host.unprintable? (Text.line t) with
    | some gap => exact ⟨.error (.halves gap), [], by simp⟩
    | none =>
      obtain ⟨e, given, h⟩ := ih { w with out := w.out ++ Text.line t }
      exact ⟨e, t :: given, by simpa using h⟩

/-- A line fails or is answered, in the same way whatever was printed before. It fails, too, if its
answer cannot be printed. -/
theorem perform_chatLine_cases (n : Notebook) (sentence : Text) (w : World) :
    (∃ (f : Failure) (w₁ : World), ∀ t, (chatLine n sentence).perform { w with out := t } =
      (.error f, { w₁ with out := t })) ∨
    ∃ (a : Text) (ended : Bool) (w₁ : World),
      (n.conversation.respond n.facts sentence).answer = some a ∧
      (ended = true ↔ a = n.conversation.lexicon.replies.goodbye) ∧
      ∀ t, (chatLine n sentence).perform { w with out := t } =
        (.ok ({ n with facts := (n.conversation.respond n.facts sentence).facts }, ended),
          { w₁ with out := t ++ Text.line a }) := by
  have hquiet := Notebook.quiet_answer n sentence
  rcases ha : (n.answer sentence).perform w with ⟨f | ⟨n₁, a⟩, w₁⟩
  · refine .inl ⟨f, w₁, ?_⟩
    intro t
    rw [chatLine, perform_bind, hquiet.perform ha t]
  · obtain ⟨rfl, hanswer, -⟩ := Notebook.of_perform_answer_steps ha
    cases hg : Host.unprintable? (Text.line a) with
    | some gap =>
      refine .inl ⟨.halves gap, w₁, ?_⟩
      intro t
      rw [chatLine, perform_bind_of_ok (hquiet.perform ha t), perform_bind, printLine,
        perform_print, hg]
    | none =>
      refine .inr ⟨a, n.isOver a, w₁, hanswer, beq_iff_eq, ?_⟩
      intro t
      rw [chatLine, perform_bind_of_ok (hquiet.perform ha t), perform_bind, printLine,
        perform_print, hg]
      rfl

/-- A line prints its answer, and the talk is over after a goodbye. -/
theorem of_perform_chatLine_printed
    (h : (chatLine n sentence).perform w = (.ok (n₁, ended), w₁)) :
    n₁ = { n with facts := (n.conversation.respond n.facts sentence).facts } ∧
      ∃ a, (n.conversation.respond n.facts sentence).answer = some a ∧
        (ended = true ↔ a = n.conversation.lexicon.replies.goodbye) ∧
        w₁.out = w.out ++ Text.line a := by
  obtain ⟨f, w₂, hl⟩ | ⟨a, goodbye, w₂, ha, hgoodbye, hl⟩ := perform_chatLine_cases n sentence w
  · cases h.symm.trans (hl w.out)
  · obtain ⟨hr, rfl⟩ := Prod.mk.inj (h.symm.trans (hl w.out))
    obtain ⟨rfl, rfl⟩ := Prod.mk.inj (Except.ok.inj hr)
    exact ⟨rfl, a, ha, hgoodbye, rfl⟩

/-- A talk that ends well has printed all answers, and either each sentence has one or the last is
the goodbye. -/
theorem of_perform_tell_printed (h : (tell n sentences).perform w = (.ok n', w')) :
    w'.out = w.out ++ (n.conversation.answers n.facts sentences).flatMap Text.line ∧
      ((n.conversation.answers n.facts sentences).length = sentences.length ∨
        n.lexicon.replies.goodbye ∈ n.conversation.answers n.facts sentences) := by
  induction sentences generalizing n w with
  | nil =>
    unfold tell at h
    obtain ⟨_, w₁, hs, h⟩ := of_perform_bind h
    obtain ⟨rfl, rfl⟩ := of_perform_pure h
    refine ⟨?_, .inl rfl⟩
    rw [(Notebook.quiet_save n).out hs]
    exact (List.append_nil _).symm
  | cons sentence rest ih =>
    unfold tell at h
    obtain ⟨⟨n₁, ended⟩, w₁, hl, h⟩ := of_perform_bind h
    obtain ⟨rfl, a, ha, hended, hout⟩ := of_perform_chatLine_printed hl
    cases ended with
    | true =>
      obtain ⟨rfl, rfl⟩ := of_perform_pure h
      have hg := hended.mp rfl
      rw [Conversation.answers_cons_of_goodbye rest ha hg]
      refine ⟨by simpa using hout, .inr ?_⟩
      rw [List.mem_singleton]
      exact hg.symm
    | false =>
      have hg := mt hended.mpr Bool.false_ne_true
      obtain ⟨hrest, hlast⟩ := ih h
      rw [Conversation.answers_cons_of_ne rest ha hg]
      refine ⟨?_, ?_⟩
      · rw [hrest, hout, List.flatMap_cons, List.append_assoc]
        rfl
      · obtain hlength | hmem := hlast
        · exact .inl (congrArg (· + 1) hlength)
        · exact .inr (List.mem_cons_of_mem a hmem)

/-- A run with the status 0 is that of a command that came to its end, with what it printed. -/
theorem exists_perform_of_status {d : Disk} {c : Command} {arguments : List Text} {input : Input}
    (h : requestOf arguments = .ok (.command setting c))
    (hs : (run d arguments input).status = .ok 0) :
    ∃ w, (c.run setting input).perform (World.on d) = (.ok 0, w) ∧
      run d arguments input = ⟨.ok 0, w.out, w.messages setting.verbose, w.disk⟩ := by
  rcases hr : (c.run setting input).perform (World.on d) with ⟨f | status, w⟩
  · rw [run_of_error h hr] at hs
    split at hs <;> cases hs
  · have hrun := run_of_ok h hr
    rw [hrun] at hs
    cases hs
    exact ⟨w, rfl, hrun⟩

end Shell

end Syllogism
