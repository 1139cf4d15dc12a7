import Syllogism.Proofs.Notebook.Ends
import Syllogism.Proofs.Sentence.Answers
import Syllogism.Proofs.Shell.Opened
import Syllogism.Proofs.Shell.Saved

/-! How a run ends. A command has the status 0 or 1, also where its files are of no use, except for
some failures that leave the program; each of them has a cause on the disk, in what was asked or in
what is to be printed. -/

namespace Syllogism.Shell

open Act

section

variable [Host]

/-- The lines in which something found is reported. -/
def reportLines (name : String) (asked : Text) (json : Bool) (found : List Text) : List Text :=
  if json then [(resultsJson name asked found).text] else found

/-- The lines that a command can come to print, with a notebook that has its facts. -/
inductive Prints (n : Notebook) (input : Input) : Command → Text → Prop where
  | answer {c : Command} {a : Text} {sentences : List Text}
    {talk : Notebook → List Text → Act Notebook} (hc : Talks input c sentences talk)
    (ha : a ∈ n.conversation.answers n.facts sentences) : Prints n input c a
  | subject {subject t : Text} {json : Bool} {found : List Text}
    (hf : n.facts.whatIs? n.lexicon.key (n.mode.within Host.asked) subject = some found)
    (ht : t ∈ reportLines "subject" subject json found) : Prints n input (.query subject json) t
  | attr {attr t : Text} {json : Bool} {found : List Text}
    (hf : n.facts.whoIs? n.lexicon.key (n.mode.within Host.asked) attr = some found)
    (ht : t ∈ reportLines "attribute" attr json found) : Prints n input (.who attr json) t
  | pair {p : Text × Text} (hp : p ∈ n.facts.pairs) : Prints n input (.dump true) (pairLine p)

/-- What leaves the program, and why: a name that is none for the system; bytes of a lexicon or of
the input that are no UTF-8; an integer in one of the files that is too long; an option for the facts
without a value; halves in facts that are saved or dumped, or in a line that standard output does not
take. -/
inductive Escape (d : Disk) (setting : Setting) (input : Input) (c : Command) : Failure → Prop where
  | lexiconName {file : Text} {unfit : Path.Unfit} (hs : setting.lexicon = some file)
    (h : Path.unfit? file = some unfit) : Escape d setting input c (.ofUnfit unfit)
  | lexiconBytes {file : Text} {bytes : Bytes} {fault : Utf8.Fault}
    (hs : setting.lexicon = some file) (hb : d.read (Route.ofText file) = .ok bytes)
    (h : Utf8.decode bytes = .error fault) : Escape d setting input c (.notUtf8 fault)
  | lexiconInteger {file t : Text} {bytes : Bytes} {digits : Nat}
    (hs : setting.lexicon = some file) (hb : d.read (Route.ofText file) = .ok bytes)
    (ht : Utf8.decode bytes = .ok t)
    (h : Json.Exceeds Host.lexiconRoom (Lexicon.unifyLineEnds t) (.longInteger digits)) :
    Escape d setting input c (.longInteger digits)
  | noPath (hs : setting.path = none) : Escape d setting input c .noPath
  | factsInteger {path : Text} {bytes : Bytes} {digits : Nat} (hs : setting.path = some path)
    (hb : d.read (Path.ofText path).route = .ok bytes)
    (h : Facts.Overruns Host.factsRoom bytes (.longInteger digits)) :
    Escape d setting input c (.longInteger digits)
  | savedName {path name : Text} {unfit : Path.Unfit} {sentences : List Text}
    {talk : Notebook → List Text → Act Notebook} (hc : Talks input c sentences talk)
    (hs : setting.path = some path) (hn : name ∈ (Path.ofText path).names) (h : unfit.In name) :
    Escape d setting input c (.ofUnfit unfit)
  | savedHalves {path : Text} {sentences : List Text} {talk : Notebook → List Text → Act Notebook}
    {facts : Facts} (gap : Utf8.Gap) (hc : Talks input c sentences talk)
    (hs : setting.path = some path) (hd : d.Holds (Path.ofText path) facts)
    (h : facts.isWhole = false) : Escape d setting input c (.halves gap)
  | toldHalves {t : Text} {sentences : List Text} {talk : Notebook → List Text → Act Notebook}
    (gap : Utf8.Gap) (hc : Talks input c sentences talk)
    (ht : t ∈ sentences) (h : t.isWhole = false) : Escape d setting input c (.halves gap)
  | dumpedHalves {path : Text} {facts : Facts} {gap : Utf8.Gap} (hc : c = .dump false)
    (hs : setting.path = some path) (hd : d.Holds (Path.ofText path) facts)
    (h : facts.gap? = some gap) : Escape d setting input c (.halves gap)
  | printedHalves {n : Notebook} {t : Text} {gap : Utf8.Gap} (hn : notebookIn d setting = .ok n)
    (ht : Prints n input c t) (h : Host.unprintable? (Text.line t) = some gap) :
    Escape d setting input c (.halves gap)
  | input {fault : Utf8.Fault} (hc : c = .chat) (h : input.fault = some fault) :
    Escape d setting input c (.notUtf8 fault)

variable {d : Disk} {setting : Setting} {input : Input} {fault : Option Utf8.Fault}
  {sentence a : Text} {sentences rest : List Text} {c : Command}
  {talk : Notebook → List Text → Act Notebook} {n : Notebook} {f : Failure} {w : World}
  {P : Failure → Prop}

/-! Files that are of no use -/

theorem escape_of_storedLexicon {file : Text} (hs : setting.lexicon = some file)
    (h : storedLexicon d file = .error f) : f.isReported = true ∨ Escape d setting input c f := by
  rw [storedLexicon] at h
  split at h
  · rename_i unfit hn
    obtain rfl := Except.error.inj h
    exact .inr (.lexiconName hs hn)
  · split at h
    · obtain rfl := Except.error.inj h
      exact .inl rfl
    · rename_i bytes hb
      obtain ⟨unread, hf, rfl⟩ := mapError_eq_error.mp h
      obtain ⟨fault, rfl⟩ | rfl | ⟨fault, rfl, hd⟩ | ⟨t, digits, rfl, ht, hl⟩ :=
        Lexicon.ofFile_eq_error hf
      · exact .inl rfl
      · exact .inl rfl
      · exact .inr (.lexiconBytes hs hb hd)
      · exact .inr (.lexiconInteger hs hb ht hl)

theorem escape_of_factsIn {path : Text} (hs : setting.path = some path)
    (h : Notebook.factsIn d (Path.ofText path) = .error f) :
    f.isReported = true ∨ Escape d setting input c f := by
  unfold Notebook.factsIn at h
  split at h
  · cases h
  · split at h
    · obtain rfl := Except.error.inj h
      exact .inl rfl
    · cases h
    · split at h
      · obtain rfl := Except.error.inj h
        exact .inl rfl
      · rename_i bytes hb
        obtain ⟨unread, hf, rfl⟩ := mapError_eq_error.mp h
        obtain ⟨fault, rfl⟩ | rfl | ⟨digits, rfl, hl⟩ := Facts.ofBytes_eq_error hf
        · exact .inl rfl
        · exact .inl rfl
        · exact .inr (.factsInteger hs hb hl)

theorem escape_of_notebookIn (h : notebookIn d setting = .error f) :
    f.isReported = true ∨ Escape d setting input c f := by
  unfold notebookIn at h
  split at h
  · rename_i hl
    obtain rfl := Except.error.inj h
    match hs : setting.lexicon, hl with
    | some (a :: file), hl => exact escape_of_storedLexicon hs hl
  · rename_i hs
    obtain rfl := Except.error.inj h
    exact .inr (.noPath hs)
  · rename_i l path hl hs
    exact escape_of_factsIn hs (map_eq_error.mp h)

/-! Printing -/

/-- A text without halves can always be printed. -/
theorem ends_print_whole {t : Text} (h : t.isWhole) : Ends (fun _ => True) P (Act.print t) := by
  refine ends_print fun gap hg => ?_
  rw [unprintable?_eq_none h] at hg
  cases hg

theorem ends_printLines {lines : List Text}
    (h : ∀ t ∈ lines, ∀ gap, Host.unprintable? (Text.line t) = some gap → P (.halves gap)) :
    Ends (fun _ => True) P (printLines lines) := by
  induction lines with
  | nil => exact ends_pure trivial
  | cons t lines ih =>
    refine (ends_print (h t List.mem_cons_self)).bind fun _ _ => ih ?_
    exact fun s hs => h s (List.mem_cons_of_mem t hs)

/-! Talks -/

/-- What can go wrong in a talk: the facts are not saved, an answer is not printed, or the input is
no UTF-8. -/
inductive Trouble (n : Notebook) (fault : Option Utf8.Fault) (sentences : List Text) :
    Failure → Prop where
  | saved {f : Failure} (h : Notebook.Hindrance n.facts n.path sentences f) :
    Trouble n fault sentences f
  | printed {a : Text} {gap : Utf8.Gap} (ha : a ∈ n.conversation.answers n.facts sentences)
    (h : Host.unprintable? (Text.line a) = some gap) : Trouble n fault sentences (.halves gap)
  | input {bad : Utf8.Fault} (h : fault = some bad) : Trouble n fault sentences (.notUtf8 bad)

/-- Trouble behind an answer is trouble in the whole talk. -/
theorem Trouble.of_rest (ha : (n.conversation.respond n.facts sentence).answer = some a)
    (hg : a ≠ n.conversation.lexicon.replies.goodbye)
    (h : Trouble { n with facts := (n.conversation.respond n.facts sentence).facts } fault rest f) :
    Trouble n fault (sentence :: rest) f := by
  cases h with
  | saved h => exact .saved h.of_rest
  | printed hb h =>
    refine .printed ?_ h
    rw [Conversation.answers_cons_of_ne rest ha hg]
    exact List.mem_cons_of_mem a hb
  | input h => exact .input h

theorem ends_chatLine (fault : Option Utf8.Fault) (n : Notebook) (sentence : Text)
    (rest : List Text) :
    Ends (fun r => ∃ a, (n.conversation.respond n.facts sentence).answer = some a ∧
        r = ({ n with facts := (n.conversation.respond n.facts sentence).facts }, n.isOver a))
      (Trouble n fault (sentence :: rest)) (chatLine n sentence) := by
  refine ((Notebook.ends_answer n sentence).imp fun _ => .saved).bind ?_
  rintro ⟨n', a⟩ ⟨rfl, ha⟩
  refine (ends_print fun gap hg => ?_).bind fun _ _ => ends_pure ⟨a, ha, rfl⟩
  exact .printed (Conversation.mem_answers_cons rest ha) hg

/-- A line ends a talk, or the rest of the talk follows. -/
theorem ends_chatLine_bind {go : Notebook → Act Notebook}
    (h : ∀ n', Ends (fun _ => True) (Trouble n' fault rest) (go n')) :
    Ends (fun _ => True) (Trouble n fault (sentence :: rest))
      (chatLine n sentence >>= fun r => if r.2 = true then pure r.1 else go r.1) := by
  refine (ends_chatLine fault n sentence rest).bind ?_
  rintro _ ⟨a, ha, rfl⟩
  dsimp only
  split
  · exact ends_pure trivial
  · rename_i he
    have hg : a ≠ n.conversation.lexicon.replies.goodbye := fun hg => he (beq_iff_eq.mpr hg)
    exact (h _).imp fun f => Trouble.of_rest ha hg

theorem ends_tell (n : Notebook) (sentences : List Text) :
    Ends (fun _ => True) (Trouble n none sentences) (tell n sentences) := by
  induction sentences generalizing n with
  | nil => exact (Notebook.ends_writeFacts.imp fun _ => .saved).bind fun _ _ => ends_pure trivial
  | cons sentence rest ih => exact ends_chatLine_bind ih

theorem ends_chatEnd (fault : Option Utf8.Fault) (n : Notebook) :
    Ends (fun _ => True) (Trouble n fault []) (chatEnd fault n) := by
  cases fault with
  | some bad => exact ends_fail (.input rfl)
  | none =>
    exact (Notebook.ends_writeFacts.imp fun _ => .saved).bind fun _ _ => ends_print_whole rfl

theorem ends_chat (fault : Option Utf8.Fault) (n : Notebook) (sentences : List Text) :
    Ends (fun _ => True) (Trouble n fault sentences) (chat fault n sentences) := by
  induction sentences generalizing n with
  | nil =>
    refine (ends_print_whole rfl).bind fun _ _ => ?_
    exact (ends_chatEnd fault n).bind fun _ _ => ends_pure trivial
  | cons sentence rest ih => exact (ends_print_whole rfl).bind fun _ _ => ends_chatLine_bind ih

theorem escape_of_hindrance (hn : notebookIn d setting = .ok n) (hc : Talks input c sentences talk)
    (h : Notebook.Hindrance n.facts n.path sentences f) :
    f.isReported = true ∨ Escape d setting input c f := by
  obtain ⟨path, hs, hp, hd⟩ := notebookIn_eq_ok hn
  rw [hp] at h hd
  cases h with
  | reported h => exact .inl h
  | name hm h => exact .inr (.savedName hc hs hm h)
  | told gap ht h => exact .inr (.toldHalves gap hc ht h)
  | stored gap h =>
    obtain hd | hempty := hd
    · exact .inr (.savedHalves gap hc hs hd h)
    · rw [hempty] at h
      cases h

/-- A talk that does not break off ends with the status 0. -/
theorem Talks.ends (hc : Talks input c sentences talk) (hn : notebookIn d setting = .ok n) :
    Ends (fun status => status = 0 ∨ status = 1)
      (fun f => f.isReported = true ∨ Escape d setting input c f)
      (do let _ ← talk n sentences; return 0) := by
  have ht : Ends (fun _ => True) (fun f => f.isReported = true ∨ Escape d setting input c f)
      (talk n sentences) := by
    cases hc with
    | tell =>
      refine (ends_tell n sentences).imp ?_
      rintro f (h | ⟨ha, hg⟩ | h)
      · exact escape_of_hindrance hn (.tell sentences) h
      · exact .inr (.printedHalves hn (.answer (.tell sentences) ha) hg)
      · cases h
    | chat =>
      refine (ends_chat input.fault n input.lines).imp ?_
      rintro f (h | ⟨ha, hg⟩ | h)
      · exact escape_of_hindrance hn .chat h
      · exact .inr (.printedHalves hn (.answer .chat ha) hg)
      · exact .inr (.input rfl h)
  exact ht.bind fun _ _ => ends_pure (.inl rfl)

/-! Commands -/

theorem ends_report (name : String) (asked nothing : Text) (json : Bool) (found : List Text)
    (h : ∀ t ∈ reportLines name asked json found, ∀ gap,
      Host.unprintable? (Text.line t) = some gap → P (.halves gap)) :
    Ends (fun status => status = 0 ∨ status = 1) P (report name asked nothing json found) := by
  have hstatus : ∀ printed : Act Unit, Ends (fun _ => True) P printed →
      Ends (fun status => status = 0 ∨ status = 1) P
        (printed >>= fun _ => return if found.isEmpty then 1 else 0) := by
    intro printed hp
    refine hp.bind fun _ _ => ends_pure ?_
    split
    · exact .inr rfl
    · exact .inl rfl
  cases json with
  | true =>
    simp only [report, Bool.not_true, Bool.and_false, Bool.false_eq_true, if_false, if_true]
    exact hstatus _ (ends_print (h _ (List.mem_singleton_self _)))
  | false =>
    have hprint := hstatus _ (ends_printLines h)
    simp only [report]
    split
    · exact (ends_modify _).bind fun _ _ => hprint
    · exact hprint

theorem escape_of_gap (hn : notebookIn d setting = .ok n) {gap : Utf8.Gap}
    (h : n.facts.gap? = some gap) : Escape d setting input (.dump false) (.halves gap) := by
  obtain ⟨path, hs, hp, hd | hempty⟩ := notebookIn_eq_ok hn
  · exact .dumpedHalves rfl hs (hp ▸ hd) h
  · rw [hempty] at h
    cases h

/-- A command goes on with the notebook that it starts with. -/
theorem exists_run_eq (input : Input) (c : Command) (hn : notebookIn d setting = .ok n) :
    ∃ k : Notebook → Act Nat, c.run setting input = openNotebook setting >>= k ∧
      Ends (fun status => status = 0 ∨ status = 1)
        (fun f => f.isReported = true ∨ Escape d setting input c f) (k n) := by
  cases c with
  | chat => exact ⟨_, rfl, Talks.chat.ends hn⟩
  | tell sentences => exact ⟨_, rfl, (Talks.tell sentences).ends hn⟩
  | query subject json =>
    refine ⟨_, rfl, ?_⟩
    refine (Notebook.ends_found (.inl rfl)).bind fun found hf => ends_report _ _ _ json found ?_
    exact fun t ht gap hg => .inr (.printedHalves hn (.subject hf ht) hg)
  | who attr json =>
    refine ⟨_, rfl, ?_⟩
    refine (Notebook.ends_found (.inl rfl)).bind fun found hf => ends_report _ _ _ json found ?_
    exact fun t ht gap hg => .inr (.printedHalves hn (.attr hf ht) hg)
  | dump pairs =>
    refine ⟨_, rfl, ?_⟩
    cases pairs with
    | true =>
      refine (ends_printLines fun t ht gap hg => ?_).bind fun _ _ => ends_pure (.inl rfl)
      obtain ⟨p, hp, rfl⟩ := List.mem_map.mp ht
      exact .inr (.printedHalves hn (.pair hp) hg)
    | false =>
      refine (Notebook.ends_requireWritable ?_).bind fun _ hw => ?_
      · exact fun gap hg => .inr (escape_of_gap hn hg)
      · refine (ends_print_whole ?_).bind fun _ _ => ends_pure (.inl rfl)
        rw [Text.line, Text.isWhole_append, Facts.isWhole_text, hw]
        rfl

/-! Runs -/

theorem perform_excuse (f : Failure) (w : World) :
    (excuse f).perform w =
      if f.isReported then
        (.ok 1, { w with
          notices := w.notices ++ [.message (Text.line (Text.of "Error: " ++ f.message))] })
      else (.error f, w) := by
  rw [excuse]
  split <;> rfl

/-- What a failure of the command comes to. -/
theorem run_of_error {arguments : List Text}
    (h : requestOf arguments = .ok (.command setting c))
    (hf : (c.run setting input).perform (World.on d) = (.error f, w)) :
    run d arguments input =
      if f.isReported then
        ⟨.ok 1, w.out, w.messages setting.verbose ++ Text.line (Text.of "Error: " ++ f.message),
          w.disk⟩
      else ⟨.error f, w.out, w.messages setting.verbose, w.disk⟩ := by
  rw [run, h]
  simp only [Request.run]
  rw [reporting, perform_tryCatch, hf]
  dsimp only
  rw [perform_excuse]
  split
  · simp [World.messages, Notice.shown]
  · rfl

/-- What cannot be printed or saved leaves the program. -/
theorem run_of_halves {arguments : List Text} {gap : Utf8.Gap}
    (h : requestOf arguments = .ok (.command setting c))
    (hf : (c.run setting input).perform (World.on d) = (.error (.halves gap), w)) :
    run d arguments input = ⟨.error (.halves gap), w.out, w.messages setting.verbose, w.disk⟩ :=
  run_of_error h hf

theorem run_of_ok {arguments : List Text} {status : Nat}
    (h : requestOf arguments = .ok (.command setting c))
    (hr : (c.run setting input).perform (World.on d) = (.ok status, w)) :
    run d arguments input = ⟨.ok status, w.out, w.messages setting.verbose, w.disk⟩ := by
  rw [run, h]
  simp only [Request.run]
  rw [reporting, perform_tryCatch, hr]

/-- Where the files of a command are of no use, it fails before it has done anything. -/
theorem perform_run_of_notebookIn (input : Input) (c : Command)
    (h : notebookIn d setting = .error f) :
    (c.run setting input).perform (World.on d) = (.error f, World.on d) := by
  have ho : (openNotebook setting).perform (World.on d) = (.error f, World.on d) := by
    obtain ⟨f', hf, ho⟩ | ⟨n, w', hn, -⟩ := perform_openNotebook setting (World.on d)
    · cases h.symm.trans hf
      exact ho
    · cases h.symm.trans hn
  have hbind : ∀ k : Notebook → Act Nat,
      (openNotebook setting >>= k).perform (World.on d) = (.error f, World.on d) := by
    intro k
    rw [perform_bind, ho]
  cases c <;> exact hbind _

/-- A command ends with a status or with a failure that is reported or leaves the program. -/
theorem run_cases (d : Disk) (setting : Setting) (input : Input) (c : Command) :
    (∃ status w, (c.run setting input).perform (World.on d) = (.ok status, w) ∧
      (status = 0 ∨ status = 1)) ∨
    ∃ f w, (c.run setting input).perform (World.on d) = (.error f, w) ∧
      (f.isReported = true ∨ Escape d setting input c f) := by
  cases h : notebookIn d setting with
  | error f => exact .inr ⟨f, _, perform_run_of_notebookIn input c h, escape_of_notebookIn h⟩
  | ok n =>
    obtain ⟨k, hk, hends⟩ := exists_run_eq input c h
    rw [hk, perform_bind]
    obtain ⟨f, hf, -⟩ | ⟨n', w', hn, ho⟩ := perform_openNotebook setting (World.on d)
    · cases h.symm.trans hf
    · obtain rfl := Except.ok.inj (h.symm.trans hn)
      rw [ho]
      exact hends w'

/-- With a lexicon or facts that are of no use a command does nothing but say so, unless the failure
leaves the program. A failure that comes later is told in the same way. In the end the status is 0
or 1, or what left the program has one of its causes. -/
theorem status_or_escape {arguments : List Text}
    (h : requestOf arguments = .ok (.command setting c)) :
    (∀ f, notebookIn d setting = .error f → run d arguments input =
      if f.isReported then ⟨.ok 1, [], Text.line (Text.of "Error: " ++ f.message), d⟩
      else ⟨.error f, [], [], d⟩) ∧
    (∀ f w, (c.run setting input).perform (World.on d) = (.error f, w) →
      f.isReported = true → run d arguments input =
        ⟨.ok 1, w.out, w.messages setting.verbose ++ Text.line (Text.of "Error: " ++ f.message),
          w.disk⟩) ∧
    ((run d arguments input).status = .ok 0 ∨ (run d arguments input).status = .ok 1 ∨
      ∃ f, (run d arguments input).status = .error f ∧
        Escape d setting input c f) := by
  refine ⟨?_, ?_, ?_⟩
  · intro f hf
    exact run_of_error h (perform_run_of_notebookIn _ c hf)
  · intro f w hf hr
    rw [run_of_error h hf, if_pos hr]
  · obtain ⟨status, w, hr, hs⟩ | ⟨f, w, hr, hf⟩ := run_cases d setting input c
    · rw [run_of_ok h hr]
      obtain rfl | rfl := hs
      · exact .inl rfl
      · exact .inr (.inl rfl)
    · rw [run_of_error h hr]
      split
      · exact .inr (.inl rfl)
      · rename_i hn
        exact .inr (.inr ⟨f, rfl, hf.resolve_left hn⟩)

end

/-- A disk with an array for facts, and with a byte that starts no character for a lexicon. -/
def uselessDisk : Disk :=
  .ofEntries [("Sillogismi.js", .file (Utf8.encode "[]")), ("lex.json", .file [0xFF])]

section

open scoped Host

/-- Facts that are no object are told of. -/
theorem status_or_escape_array :
    requestOf ["dump"] = .ok (.command plainSetting (.dump false)) ∧
      run uselessDisk ["dump"] (.ofText []) = ⟨.ok 1, [],
        Text.of "Error: fact store must be a JSON object, got list\n", uselessDisk⟩ := by
  have h : requestOf ["dump"] = .ok (.command plainSetting (.dump false)) := by decide +kernel
  have hf : notebookIn uselessDisk plainSetting =
      .error (.malformedFacts (.notObject "list")) := rfl
  refine ⟨h, ?_⟩
  rw [(status_or_escape h).1 _ hf]
  rfl

/-- A lexicon that is no UTF-8 is not told of, but leaves the program. -/
theorem lexicon_leaves :
    run uselessDisk ["dump", "--lexicon", "lex.json"] (.ofText []) =
      ⟨.error (.notUtf8 ⟨0, 0xFF, 1, .badStart⟩), [], [], uselessDisk⟩ := by
  have h : requestOf ["dump", "--lexicon", "lex.json"] =
      .ok (.command { plainSetting with lexicon := some "lex.json" } (.dump false)) := by
    decide +kernel
  have hf : notebookIn uselessDisk { plainSetting with lexicon := some "lex.json" } =
      .error (.notUtf8 ⟨0, 0xFF, 1, .badStart⟩) := rfl
  exact run_of_error h (perform_run_of_notebookIn _ _ hf)

end

end Syllogism.Shell
