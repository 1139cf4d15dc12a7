import Syllogism.Proofs.Lexicon.Written
import Syllogism.Proofs.Notebook.Reread
import Syllogism.Proofs.Shell.Printed

/-! A talk in two runs: the second one goes on with the notebook that the first one has saved, so
that together they say and keep what one run does. -/

namespace Syllogism

namespace Notebook

variable [Host] {n : Notebook} {facts : Facts} {path : Path} {d d' : Disk}

/-- A save of the notebook leads from one disk to the other. -/
def Saves (n : Notebook) (d d' : Disk) : Prop :=
  ∃ w w' : World, w.disk = d ∧ w'.disk = d' ∧ n.save.perform w = (.ok (), w')

theorem Saves.read (h : n.Saves d d') (hp : Text.of "." ∉ n.path.names) :
    n.facts.isWhole ∧ d'.read n.path.route = .ok n.facts.bytes ∧
      ∀ r old, d.read r = .ok old → d'.read r = .ok old ∨ d'.read r = .ok n.facts.bytes := by
  obtain ⟨w, w', rfl, rfl, hs⟩ := h
  exact of_perform_writeFacts_read hp hs

theorem Saves.factsIn (h : n.Saves d d') (hp : Text.of "." ∉ n.path.names) :
    Notebook.factsIn d' n.path = .ok n.facts := by
  obtain ⟨w, w', -, rfl, hs⟩ := h
  obtain ⟨hn, hholds, -⟩ := of_perform_writeFacts hs
  have hthere := (hholds hp).isThere
  obtain ⟨bytes, hb, hf⟩ := hholds hp
  unfold Notebook.factsIn
  rw [if_neg (hn ▸ Bool.false_ne_true)]
  simp only [hthere, hb, hf, mapError_ok]

end Notebook

namespace Shell

open Act

section

variable [Host] {n n' n₁ : Notebook} {sentence : Text} {sentences : List Text} {d d' : Disk}
  {setting : Setting} {w w' w₁ : World} {ended : Bool}

/-! The save of a talk -/

theorem of_perform_chatLine_saved (h : (chatLine n sentence).perform w = (.ok (n₁, ended), w₁)) :
    if (n.conversation.respond n.facts sentence).farewell then n₁.Saves w.disk w₁.disk
    else w₁.disk = w.disk := by
  obtain ⟨a, w₂, ha, -, hw, -⟩ := of_perform_chatLine_steps h
  obtain ⟨rfl, -, w₃, hnotes, hs⟩ := Notebook.of_perform_answer_steps ha
  have hw₃ := (of_perform_noteAll hnotes).1
  split at hs
  · rename_i hf
    rw [if_pos hf, (Conversation.respond_farewell hf).1]
    exact ⟨w₃, w₂, hw₃, hw.symm, hs⟩
  · rename_i hf
    rw [if_neg hf, hw, hs, hw₃]

/-- A talk that ends well, and not by mistake, changes the disk with one save only, that of the
notebook after the last answer. -/
theorem saves_of_perform_tell (h : (tell n sentences).perform w = (.ok n', w'))
    (he : ending n sentences ≠ .mistaken) : n'.Saves w.disk w'.disk := by
  induction sentences generalizing n w with
  | nil =>
    unfold tell at h
    obtain ⟨_, w₁, hs, h⟩ := of_perform_bind h
    obtain ⟨rfl, rfl⟩ := of_perform_pure h
    exact ⟨w, w₁, rfl, rfl, hs⟩
  | cons sentence rest ih =>
    unfold tell at h
    obtain ⟨⟨n₁, ended⟩, w₁, hl, h⟩ := of_perform_bind h
    have hsaved := of_perform_chatLine_saved hl
    obtain ⟨rfl, a, ha, hended, -⟩ := of_perform_chatLine_printed hl
    cases ended with
    | true =>
      obtain ⟨rfl, rfl⟩ := of_perform_pure h
      rw [ending, Conversation.course_cons_of_goodbye rest (ha.trans (congrArg some (hended.mp rfl)))]
        at he
      split at hsaved
      · exact hsaved
      · -- the goodbye of something else than a farewell is the mistake that is excluded
        rename_i hf
        exact absurd (if_neg hf) he
    | false =>
      have hne : (n.conversation.respond n.facts sentence).answer ≠
          some n.conversation.lexicon.replies.goodbye := by
        rw [ha, ne_eq, Option.some.injEq]
        exact mt hended.mpr Bool.false_ne_true
      rw [ending, Conversation.course_cons_of_ne rest hne] at he
      have hf : (n.conversation.respond n.facts sentence).farewell ≠ true :=
        fun hf => hne (Conversation.respond_farewell hf).2
      -- so nothing is written before the rest
      rw [if_neg hf] at hsaved
      rw [← hsaved]
      exact ih h he

/-! The notebook of a second run -/

theorem exists_of_lexiconIn {c : CodePoint} {file : Text} {l : Lexicon}
    (h : lexiconIn d (some (c :: file)) = .ok l) :
    ∃ bytes, d.read (Route.ofText (c :: file)) = .ok bytes ∧
      Lexicon.ofFile Host.lexiconRoom (c :: file) bytes = .ok l := by
  have hs : storedLexicon d (c :: file) = .ok l := h
  unfold storedLexicon at hs
  split at hs
  · cases hs
  · split at hs
    · cases hs
    · rename_i bytes hb
      exact ⟨bytes, hb, mapError_eq_ok.mp hs⟩

/-- A lexicon that can be read before and after a save is the same: where facts were written, there
is none. -/
theorem lexiconIn_of_saves {name : Option Text} {l l' : Lexicon} (hs : n.Saves d d')
    (hp : Text.of "." ∉ n.path.names) (h : lexiconIn d name = .ok l)
    (h' : lexiconIn d' name = .ok l') : l' = l := by
  match name, h, h' with
  | none, h, h' => exact Except.ok.inj (h'.symm.trans h)
  | some [], h, h' => exact Except.ok.inj (h'.symm.trans h)
  | some (c :: file), h, h' =>
    obtain ⟨hw, -, hread⟩ := hs.read hp
    obtain ⟨bytes, hb, hl⟩ := exists_of_lexiconIn h
    obtain ⟨bytes', hb', hl'⟩ := exists_of_lexiconIn h'
    -- its route may be another one to the file of the notebook
    obtain hsame | hfacts := hread _ _ hb
    · obtain rfl := Except.ok.inj (hb'.symm.trans hsame)
      exact Except.ok.inj (hl'.symm.trans hl)
    · obtain rfl := Except.ok.inj (hb'.symm.trans hfacts)
      exact absurd hl' (Lexicon.ofFile_bytes_ne_ok _ hw _)

theorem exists_of_notebookIn (h : notebookIn d setting = .ok n) :
    ∃ path, setting.path = some path ∧ lexiconIn d setting.lexicon = .ok n.lexicon ∧
      Notebook.factsIn d n.path = .ok n.facts ∧ n.path = Path.ofText path ∧
      n.mode = setting.mode := by
  unfold notebookIn at h
  split at h
  · cases h
  · cases h
  · rename_i l path hl hpath
    obtain ⟨facts, hf, rfl⟩ := map_eq_ok.mp h
    exact ⟨path, hpath, hl, hf, rfl, rfl⟩

theorem dot_notMem_of_notebookIn (h : notebookIn d setting = .ok n) :
    Text.of "." ∉ n.path.names := by
  obtain ⟨path, -, -, -, hpath, -⟩ := exists_of_notebookIn h
  rw [hpath]
  exact Path.dot_notMem_ofText path

/-- After a save a command starts with the notebook that was saved, if it starts at all. -/
theorem notebookIn_of_saves {facts : Facts} (hn : notebookIn d setting = .ok n)
    (hs : Notebook.Saves { n with facts := facts } d d') (hn₁ : notebookIn d' setting = .ok n₁) :
    n₁ = { n with facts := facts } := by
  obtain ⟨path, hs₀, hl, -, hpath, hmode⟩ := exists_of_notebookIn hn
  obtain ⟨path₁, hs₁, hl₁, hf₁, hpath₁, hmode₁⟩ := exists_of_notebookIn hn₁
  obtain rfl := Option.some.inj (hs₁.symm.trans hs₀)
  have hp := dot_notMem_of_notebookIn hn
  have hfacts := hs.factsIn hp
  have hlexicon := lexiconIn_of_saves hs hp hl hl₁
  have hsame := hpath₁.trans hpath.symm
  rw [hsame] at hf₁
  have hf := Except.ok.inj (hf₁.symm.trans hfacts)
  obtain ⟨p₁, l₁, m₁, f₁⟩ := n₁
  simp only at hsame hlexicon hf hmode₁
  rw [hsame, hlexicon, hf, hmode₁, ← hmode]

/-! The runs -/

/-- A run of a talk that ends well: what it starts with, prints and saves. -/
structure Talked (n : Notebook) (sentences : List Text) (d : Disk) (r : Run) : Prop where
  out : r.out = (n.conversation.answers n.facts sentences).flatMap Text.line
  ends : (n.conversation.answers n.facts sentences).length = sentences.length ∨
    n.lexicon.replies.goodbye ∈ n.conversation.answers n.facts sentences
  saves : ending n sentences ≠ .mistaken →
    Notebook.Saves { n with facts := (n.conversation.course n.facts sentences).1 } d r.disk

theorem exists_talked {arguments : List Text} {input : Input}
    (h : requestOf arguments = .ok (.command setting (.tell sentences)))
    (hs : (run d arguments input).status = .ok 0) :
    ∃ n, notebookIn d setting = .ok n ∧ Talked n sentences d (run d arguments input) := by
  obtain ⟨w, hr, hrun⟩ := exists_perform_of_status h hs
  obtain ⟨n, w₁, n', ho, ht⟩ := (Talks.tell sentences).of_perform_run hr
  obtain ⟨hd, hout⟩ := perform_openNotebook_kept ho
  have hn : notebookIn d setting = .ok n := by
    obtain ⟨f, -, hf⟩ | ⟨n₀, w₀, hn, ho₀⟩ := perform_openNotebook setting (World.on d)
    · cases ho.symm.trans hf
    · obtain ⟨hsame, -⟩ := Prod.mk.inj (ho₀.symm.trans ho)
      exact hn.trans hsame
  obtain ⟨hprinted, hends⟩ := of_perform_tell_printed ht
  rw [hout] at hprinted
  rw [hrun]
  refine ⟨n, hn, hprinted, hends, ?_⟩
  intro he
  have hsaves := saves_of_perform_tell ht he
  rw [(leaves_tell (dot_notMem_of_notebookIn hn) ht).facts, hd] at hsaves
  exact hsaves

/-- Two runs, the second on the disk that the first has left, answer like one run with the sentences
of both, and the file has the same bytes after them. No answer to the first sentences may be the
goodbye, and the last ones may not end by mistake. -/
theorem told_twice {a b ab : List Text} {A B : List Text} {i₁ i₂ i₃ : Input}
    (ha : requestOf a = .ok (.command setting (.tell A)))
    (hb : requestOf b = .ok (.command setting (.tell B)))
    (hab : requestOf ab = .ok (.command setting (.tell (A ++ B))))
    (hsa : (run d a i₁).status = .ok 0) (hsb : (run (run d a i₁).disk b i₂).status = .ok 0)
    (hsab : (run d ab i₃).status = .ok 0) (hn : notebookIn d setting = .ok n)
    (hA : n.lexicon.replies.goodbye ∉ n.conversation.answers n.facts A)
    (hB : ending { n with facts := (n.conversation.course n.facts A).1 } B ≠ .mistaken) :
    let first := n.conversation.answers n.facts A
    let second := n.conversation.answers (n.conversation.course n.facts A).1 B
    (run d a i₁).out = first.flatMap Text.line ∧
    (run (run d a i₁).disk b i₂).out = second.flatMap Text.line ∧
    (run d ab i₃).out = (first ++ second).flatMap Text.line ∧
    ∃ bytes, (run (run d a i₁).disk b i₂).disk.read n.path.route = .ok bytes ∧
      (run d ab i₃).disk.read n.path.route = .ok bytes := by
  have hp := dot_notMem_of_notebookIn hn
  obtain ⟨n₁, hn₁, first⟩ := exists_talked ha hsa
  obtain rfl := Except.ok.inj (hn₁.symm.trans hn)
  obtain ⟨n₃, hn₃, both⟩ := exists_talked hab hsab
  obtain rfl := Except.ok.inj (hn₃.symm.trans hn)
  obtain ⟨n₂, hn₂, second⟩ := exists_talked hb hsb
  have hgoes : n₃.conversation.GoesOn n₃.facts A := ⟨first.ends.resolve_right hA, hA⟩
  obtain ⟨hanswers, hcourse⟩ := hgoes.append B
  have hsaves := first.saves (by rw [ending, hgoes.silent]; exact Ending.noConfusion)
  obtain rfl := notebookIn_of_saves hn hsaves hn₂
  have hending : ending n₃ (A ++ B) ≠ .mistaken := by
    rw [ending, hcourse]
    exact hB
  have hone := (both.saves hending).read hp
  have htwo := (second.saves hB).read hp
  refine ⟨first.out, second.out, ?_, _, htwo.2.1, ?_⟩
  · rw [both.out, hanswers]
  · rw [hcourse] at hone
    exact hone.2.1

end

section

open scoped Host

/-- The second run answers from what the first was told. -/
theorem told_twice_gatto :
    let d := Disk.empty
    let first := run d ["tell", "Il gatto è un felino"] (.ofText [])
    let second := run first.disk ["tell", "Il felino è un animale", "cosa sai su gatto", "ciao"]
      (.ofText [])
    let both := run d ["tell", "Il gatto è un felino", "Il felino è un animale",
      "cosa sai su gatto", "ciao"] (.ofText [])
    first.status = .ok 0 ∧ second.status = .ok 0 ∧ both.status = .ok 0 ∧
      both.out = first.out ++ second.out ∧
      ∃ bytes, second.disk.read (Path.ofText "Sillogismi.js").route = .ok bytes ∧
        both.disk.read (Path.ofText "Sillogismi.js").route = .ok bytes := by
  intro d first second both
  have ha : requestOf ["tell", "Il gatto è un felino"] =
      .ok (.command plainSetting (.tell ["Il gatto è un felino"])) := by decide +kernel
  have hb : requestOf ["tell", "Il felino è un animale", "cosa sai su gatto", "ciao"] =
      .ok (.command plainSetting
        (.tell ["Il felino è un animale", "cosa sai su gatto", "ciao"])) := by decide +kernel
  have hab : requestOf ["tell", "Il gatto è un felino", "Il felino è un animale",
      "cosa sai su gatto", "ciao"] = .ok (.command plainSetting
        (.tell (["Il gatto è un felino"] ++
          ["Il felino è un animale", "cosa sai su gatto", "ciao"]))) := by decide +kernel
  have hsa : first.status = .ok 0 := by decide +kernel
  have hsb : second.status = .ok 0 := by decide +kernel
  have hsab : both.status = .ok 0 := by decide +kernel
  have hn : notebookIn d plainSetting =
      .ok ⟨Path.ofText "Sillogismi.js", Lexicon.italian, .guarded, OrderedMap.empty⟩ := by rfl
  obtain ⟨hfirst, hsecond, hboth, hbytes⟩ :=
    told_twice ha hb hab hsa hsb hsab hn (by decide +kernel) (by decide +kernel)
  refine ⟨hsa, hsb, hsab, ?_, hbytes⟩
  exact hboth.trans (List.flatMap_append.trans (congrArg₂ (· ++ ·) hfirst hsecond).symm)

end

end Shell

end Syllogism
