import Syllogism.Notebook
import Syllogism.Proofs.Act
import Syllogism.Proofs.Disk.Draft
import Syllogism.Proofs.Facts.Stored

/-! What notebooks do to the disk: only a save changes it, and after that the file holds the
facts. -/

namespace Syllogism

section

variable [Host]

/-- The file at the end of a path can be read, and it has these facts. -/
def Disk.Holds (d : Disk) (p : Path) (facts : Facts) : Prop :=
  ∃ bytes, d.read p.route = .ok bytes ∧ Facts.ofBytes Host.factsRoom bytes = .ok facts

/-- A file with the bytes of facts holds them, as two brackets fit. -/
theorem Disk.holds_of_read {d : Disk} {p : Path} {facts : Facts} (hg : facts.gap? = none)
    (h : d.read p.route = .ok facts.bytes) : d.Holds p facts := by
  obtain ⟨room, hroom⟩ := Nat.exists_eq_add_of_le' Host.two_le_factsRoom
  refine ⟨facts.bytes, h, ?_⟩
  rw [hroom]
  exact Facts.ofBytes_bytes room hg

theorem Disk.Holds.unique {d : Disk} {p : Path} {facts facts' : Facts} (h : d.Holds p facts)
    (h' : d.Holds p facts') : facts = facts' := by
  obtain ⟨bytes, hb, hf⟩ := h
  obtain ⟨bytes', hb', hf'⟩ := h'
  obtain rfl := Except.ok.inj (hb.symm.trans hb')
  exact Except.ok.inj (hf.symm.trans hf')

theorem Disk.Holds.isThere {d : Disk} {p : Path} {facts : Facts} (h : d.Holds p facts) :
    d.isThere p.route = .ok true := by
  obtain ⟨bytes, hb, -⟩ := h
  obtain ⟨s, hs, -⟩ := bind_eq_ok.mp hb
  rw [Disk.isThere, hs]

end

/-- No name in a path is a dot. -/
theorem Path.dot_notMem_ofText (t : Text) : Text.of "." ∉ (Path.ofText t).names := by
  intro h
  have hd := (List.mem_filter.mp h).2
  simp at hd

namespace Notebook

variable {n n' : Notebook} {facts : Facts} {path : Path} {mode : Facts.Mode} {sentence a : Text}
  {w w' : World} {u : Unit}

theorem perform_requireWritable (facts : Facts) (w : World) :
    (requireWritable facts).perform w =
      (match facts.gap? with
        | none => .ok ()
        | some gap => .error (.halves gap), w) := by
  rw [requireWritable]
  cases facts.gap? <;> rfl

theorem of_perform_warn (h : (warn mode).perform w = (.ok u, w')) : w'.disk = w.disk := by
  cases mode <;> cases h <;> rfl

theorem of_perform_answerWith {answer? : Option Text}
    (h : (match answer? with
      | none => Act.fail .deepQuestion
      | some answer => (return ({ n with facts := facts }, answer) : Act (Notebook × Text))).perform
        w = (.ok (n', a), w')) :
    n' = { n with facts := facts } ∧ answer? = some a ∧ w = w' := by
  cases answer? with
  | none => exact (Act.not_perform_fail h).elim
  | some answer =>
    obtain ⟨he, hw⟩ := Act.of_perform_pure h
    obtain ⟨rfl, rfl⟩ := Prod.mk.inj he
    exact ⟨rfl, rfl, hw⟩

/-! A save: the directories, a draft in the last one, and the draft in its place. -/

theorem perform_openDraft (path : Path) (w : World) :
    (∃ f, (openDraft path).perform w = (.error f, w)) ∨
    ∃ d draft, Path.unfit? path.name = none ∧ w.disk.createDraft path = .ok (d, draft) ∧
      (openDraft path).perform w = (.ok draft, { w with disk := d }) := by
  rw [openDraft, Act.perform_disk_bind, Act.perform_submit_bind]
  split
  · rename_i hn
    rw [Act.perform_bind, Act.perform_granted]
    cases hd : w.disk.createDraft path with
    | error refusal => exact .inl ⟨_, rfl⟩
    | ok made => exact .inr ⟨made.1, made.2, Disk.unfit?_name_of_draftText hn, rfl, rfl⟩
  · exact .inl ⟨_, rfl⟩

theorem perform_placeDraft (bytes : Bytes) (path : Path) (draft : Spot) (w : World) :
    (placeDraft bytes path draft).perform w =
      (Act.granted [Disk.spotText draft, path.text]
        ((w.disk.put draft (.file bytes)).rename draft path) >>= Act.setDisk).perform
        { w with disk := w.disk.put draft (.file bytes) } := rfl

/-- A draft that is not renamed is still there, filled or not. -/
theorem perform_fillDraft (facts : Facts) (path : Path) (draft : Spot) (w : World) :
    (∃ f w', (fillDraft facts path draft).perform w = (.error f, w') ∧
      (w' = w ∨ w' = { w with disk := w.disk.put draft (.file facts.bytes) })) ∨
    ∃ d, facts.gap? = none ∧
      (w.disk.put draft (.file facts.bytes)).rename draft path = .ok d ∧
      (fillDraft facts path draft).perform w = (.ok (), { w with disk := d }) := by
  rw [fillDraft, Act.perform_bind, perform_requireWritable]
  cases hg : facts.gap? with
  | some gap => exact .inl ⟨_, _, rfl, .inl rfl⟩
  | none =>
    dsimp only
    rw [perform_placeDraft, Act.perform_bind, Act.perform_granted]
    cases hr : (w.disk.put draft (.file facts.bytes)).rename draft path with
    | error refusal => exact .inl ⟨_, _, rfl, .inr rfl⟩
    | ok d => exact .inr ⟨d, rfl, rfl, rfl⟩

variable [Host]

theorem perform_makeWay (path : Path) (w : World) :
    ((makeWay path).perform w).2.notices = w.notices ∧
    (((makeWay path).perform w).2.disk = w.disk ∨
      ((makeWay path).perform w).2.disk = (w.disk.ensureDirectories path.parent).2) := by
  rw [makeWay, Act.perform_submit_bind]
  split
  · rw [Act.perform_disk_bind, Act.perform_guard]
    split
    · exact ⟨rfl, .inl rfl⟩
    · rw [Act.perform_bind]
      obtain ⟨result, disk⟩ := w.disk.ensureDirectories path.parent
      cases result with
      | error refusal => exact ⟨rfl, .inr rfl⟩
      | ok u => exact ⟨rfl, .inr rfl⟩
  · exact ⟨rfl, .inl rfl⟩

/-- The way is made only for what is a path for the system. -/
theorem of_perform_makeWay (h : (makeWay path).perform w = (.ok u, w')) :
    Path.unfit? path.parent.text = none := by
  rw [makeWay] at h
  exact (Act.of_perform_submit_bind h).1

/-- A save that fails has made directories at most. One that does not has moved its draft. -/
theorem perform_writeFacts (facts : Facts) (path : Path) (w : World) :
    ∃ d, (d = w.disk ∨ d = (w.disk.ensureDirectories path.parent).2) ∧
      ((∃ f w', (writeFacts facts path).perform w = (.error f, w') ∧ w'.disk = d) ∨
      ∃ w' d₁ draft, (writeFacts facts path).perform w = (.ok (), w') ∧
        Path.unfit? path.text = none ∧ facts.gap? = none ∧ d.createDraft path = .ok (d₁, draft) ∧
        (d₁.put draft (.file facts.bytes)).rename draft path = .ok w'.disk ∧
        w'.notices = w.notices ++ [.event (.saved facts.size path.text)]) := by
  obtain ⟨hnotices, hdisk⟩ := perform_makeWay path w
  refine ⟨_, hdisk, ?_⟩
  rw [writeFacts, Act.perform_bind]
  rcases hway : (makeWay path).perform w with ⟨f | u, w₁⟩
  · exact .inl ⟨f, w₁, rfl, rfl⟩
  rw [hway] at hnotices
  dsimp only at hnotices ⊢
  rw [Act.perform_bind]
  obtain ⟨f, hopen⟩ | ⟨d₁, draft, hn, hdraft, hopen⟩ := perform_openDraft path w₁ <;> rw [hopen]
  · exact .inl ⟨f, w₁, rfl, rfl⟩
  dsimp only
  rw [Act.perform_bind, Act.perform_clearing]
  obtain ⟨f, w₂, hfill, hw₂⟩ | ⟨d, hg, hr, hfill⟩ :=
    perform_fillDraft facts path draft { w₁ with disk := d₁ } <;> rw [hfill]
  · -- the draft goes again, whether it is empty or filled
    refine .inl ⟨f, { w₂ with disk := w₂.disk.remove draft }, rfl, ?_⟩
    obtain rfl | rfl := hw₂
    · exact Disk.remove_new_draft hdraft
    · exact Disk.remove_draft hdraft _
  · have hfit := Path.unfit?_text_of_parent (of_perform_makeWay hway) hn
    refine .inr ⟨_, d₁, draft, rfl, hfit, hg, hdraft, hr, ?_⟩
    rw [← hnotices]

/-- Facts that were written are noted, and they are read back. -/
theorem of_perform_writeFacts (h : (writeFacts facts path).perform w = (.ok u, w')) :
    Path.unfit? path.text = none ∧ (Text.of "." ∉ path.names → w'.disk.Holds path facts) ∧
      w'.notices = w.notices ++ [.event (.saved facts.size path.text)] := by
  obtain ⟨d, -, ⟨f, w₁, hf, -⟩ | ⟨w₁, d₁, draft, hok, hn, hg, hdraft, hr, hnotices⟩⟩ :=
    perform_writeFacts facts path w
  · rw [hf] at h
    cases h
  · rw [hok] at h
    obtain ⟨-, rfl⟩ := Prod.mk.inj h
    refine ⟨hn, ?_, hnotices⟩
    intro hp
    exact Disk.holds_of_read hg (Disk.read_renamed hp hdraft hr)

theorem of_perform_save (hp : Text.of "." ∉ n.path.names) (h : n.save.perform w = (.ok u, w')) :
    w'.disk.Holds n.path n.facts := (of_perform_writeFacts h).2.1 hp

theorem of_perform_readFacts (h : (readFacts path mode).perform w = (.ok facts, w')) :
    w'.disk = w.disk ∧ w.disk.Holds path facts := by
  unfold readFacts at h
  obtain ⟨-, h⟩ := Act.of_perform_submit_bind h
  obtain ⟨d, w₁, hd, h⟩ := Act.of_perform_bind h
  obtain ⟨bytes, w₂, hb, h⟩ := Act.of_perform_bind h
  obtain ⟨rfl, rfl⟩ := Act.of_perform_disk hd
  obtain ⟨hread, rfl⟩ := Act.of_perform_granted hb
  cases hf : Facts.ofBytes Host.factsRoom bytes with
  | error e =>
    rw [hf] at h
    exact (Act.not_perform_fail h).elim
  | ok read =>
    rw [hf] at h
    obtain ⟨_, w₃, hw, h⟩ := Act.of_perform_bind h
    have hd := of_perform_warn hw
    cases h
    exact ⟨hd, bytes, hread, hf⟩

theorem of_perform_readIf {isThere : Bool}
    (h : (if isThere = true then readFacts path mode else do
      Act.note (.startedEmpty path.text)
      warn mode
      return OrderedMap.empty).perform w = (.ok facts, w')) :
    w'.disk = w.disk ∧ (w.disk.Holds path facts ∨ facts = OrderedMap.empty) := by
  split at h
  · obtain ⟨hd, hf⟩ := of_perform_readFacts h
    exact ⟨hd, .inl hf⟩
  · obtain ⟨_, w₁, hn, h⟩ := Act.of_perform_bind h
    obtain ⟨_, w₂, hw, h⟩ := Act.of_perform_bind h
    have hd := of_perform_warn hw
    obtain ⟨rfl, rfl⟩ := Act.of_perform_pure h
    cases hn
    exact ⟨hd, .inr rfl⟩

/-- To open a notebook changes nothing. It starts with the facts in its file, or with none. -/
theorem of_perform_readOrEmpty (h : (readOrEmpty path mode).perform w = (.ok facts, w')) :
    w'.disk = w.disk ∧ (w.disk.Holds path facts ∨ facts = OrderedMap.empty) := by
  simp only [readOrEmpty] at h
  split at h
  · obtain ⟨isThere, w₁, hi, h⟩ := Act.of_perform_bind h
    obtain ⟨-, rfl⟩ := Act.of_perform_pure hi
    exact of_perform_readIf h
  · obtain ⟨d, w₁, hd, h⟩ := Act.of_perform_bind h
    obtain ⟨isThere, w₂, hi, h⟩ := Act.of_perform_bind h
    obtain ⟨-, rfl⟩ := Act.of_perform_disk hd
    obtain ⟨-, rfl⟩ := Act.of_perform_granted hi
    exact of_perform_readIf h

theorem of_perform_openAt {t : Text} {l : Lexicon}
    (h : (openAt t l mode).perform w = (.ok n, w')) :
    ∃ facts, n = ⟨Path.ofText t, l, mode, facts⟩ ∧ w'.disk = w.disk ∧
      (w.disk.Holds n.path facts ∨ facts = OrderedMap.empty) := by
  unfold openAt at h
  obtain ⟨facts, w₁, hr, h⟩ := Act.of_perform_bind h
  obtain ⟨hd, hf⟩ := of_perform_readOrEmpty hr
  obtain ⟨rfl, rfl⟩ := Act.of_perform_pure h
  exact ⟨facts, rfl, hd, hf⟩

theorem exists_perform_readFacts (mode : Facts.Mode) (hn : Path.unfit? path.text = none)
    (h : w.disk.Holds path facts) : ∃ w', (readFacts path mode).perform w = (.ok facts, w') := by
  obtain ⟨bytes, hb, hf⟩ := h
  have hg : Act.granted [path.text] (w.disk.read path.route) = pure bytes := by
    rw [hb]
    rfl
  rw [readFacts, Act.perform_submit_bind, hn]
  simp only [Act.perform_disk_bind, hg, pure_bind, hf]
  cases mode with
  | guarded => exact ⟨_, rfl⟩
  | unguarded => exact ⟨_, rfl⟩

/-- A notebook whose file holds facts opens with them. -/
theorem exists_perform_openAt {t : Text} (l : Lexicon) (mode : Facts.Mode)
    (hn : Path.unfit? (Path.ofText t).text = none) (h : w.disk.Holds (Path.ofText t) facts) :
    ∃ w', (openAt t l mode).perform w = (.ok ⟨Path.ofText t, l, mode, facts⟩, w') := by
  obtain ⟨w', hr⟩ := exists_perform_readFacts mode hn h
  have hi : Act.granted [(Path.ofText t).text] (w.disk.isThere (Path.ofText t).route) =
      pure true := by
    rw [h.isThere]
    rfl
  have ho : (readOrEmpty (Path.ofText t) mode).perform w = (.ok facts, w') := by
    simp only [readOrEmpty]
    rw [if_neg (hn ▸ Bool.false_ne_true), Act.perform_disk_bind, hi, pure_bind, if_pos rfl]
    exact hr
  exact ⟨w', Act.perform_bind_of_ok ho⟩

/-- An answer notes what the response brings, and a farewell saves. -/
theorem of_perform_answer_steps (h : (n.answer sentence).perform w = (.ok (n', a), w')) :
    n' = { n with facts := (n.conversation.respond n.facts sentence).facts } ∧
      (n.conversation.respond n.facts sentence).answer = some a ∧
      ∃ w₁, (Act.noteAll (n.conversation.respond n.facts sentence).events).perform w = (.ok (), w₁) ∧
        if (n.conversation.respond n.facts sentence).farewell then n.save.perform w₁ = (.ok (), w')
        else w' = w₁ := by
  simp only [answer] at h
  obtain ⟨_, w₁, hn, h⟩ := Act.of_perform_bind h
  split at h
  · rename_i hf
    obtain ⟨_, w₂, hs, h⟩ := Act.of_perform_bind h
    obtain ⟨rfl, ha, rfl⟩ := of_perform_answerWith h
    refine ⟨rfl, ha, w₁, hn, ?_⟩
    rw [hf, if_pos rfl]
    exact hs
  · rename_i hf
    obtain ⟨rfl, ha, rfl⟩ := of_perform_answerWith h
    refine ⟨rfl, ha, w₁, hn, ?_⟩
    rw [if_neg hf]

/-- An answer leaves the disk as it was, unless it is the one to a farewell. -/
theorem of_perform_answer (hp : Text.of "." ∉ n.path.names)
    (h : (n.answer sentence).perform w = (.ok (n', a), w')) :
    n' = { n with facts := (n.conversation.respond n.facts sentence).facts } ∧
      (n.conversation.respond n.facts sentence).answer = some a ∧
      if (n.conversation.respond n.facts sentence).farewell then w'.disk.Holds n.path n.facts
      else w'.disk = w.disk := by
  obtain ⟨rfl, ha, w₁, hn, hs⟩ := of_perform_answer_steps h
  refine ⟨rfl, ha, ?_⟩
  split at hs
  · rename_i hf
    rw [hf, if_pos rfl]
    exact of_perform_save hp hs
  · rename_i hf
    rw [if_neg hf, hs]
    exact (Act.of_perform_noteAll hn).1

end Notebook

end Syllogism
