import Syllogism.Proofs.Facts.Read
import Syllogism.Proofs.Notebook
import Syllogism.Shell.Command

/-! What a command starts with: the lexicon and the facts in the files that it is given. -/

namespace Syllogism

/-! Why a file is not read -/

theorem Json.exceeds_of_read {room digits : Nat} {t : Text}
    (h : read room t = .error (.longInteger digits)) : Exceeds room t (.longInteger digits) := by
  obtain ⟨stop, hd, hs⟩ := mapError_eq_error.mp h
  cases stop with
  | longInteger digits' =>
    obtain rfl := Failure.longInteger.inj hs
    exact document_eq_error_iff.mp ⟨hd, rfl⟩
  | _ => cases hs

/-- A lexicon is at fault, one of its brackets is too deep, its bytes are no UTF-8, or an integer in it
is too long. -/
theorem Lexicon.ofFile_eq_error {room : Nat} {file : Text} {bytes : Bytes} {unread : Unread}
    (h : ofFile room file bytes = .error unread) :
    (∃ fault, unread = .faulty fault) ∨ unread = .deepNesting ∨
    (∃ fault, unread = .notUtf8 fault ∧ Utf8.decode bytes = .error fault) ∨
    ∃ t digits, unread = .longInteger digits ∧ Utf8.decode bytes = .ok t ∧
      Json.Exceeds room (unifyLineEnds t) (.longInteger digits) := by
  rw [ofFile] at h
  cases hd : Utf8.decode bytes with
  | error fault =>
    rw [hd] at h
    obtain rfl := Except.error.inj h
    exact .inr (.inr (.inl ⟨fault, rfl, rfl⟩))
  | ok t =>
    rw [hd] at h
    dsimp only at h
    split at h
    · obtain rfl := Except.error.inj h
      exact .inl ⟨_, rfl⟩
    · rename_i digits hr
      obtain rfl := Except.error.inj h
      exact .inr (.inr (.inr ⟨t, digits, rfl, rfl, Json.exceeds_of_read hr⟩))
    · obtain rfl := Except.error.inj h
      exact .inr (.inl rfl)
    · obtain ⟨fault, -, rfl⟩ := mapError_eq_error.mp h
      exact .inl ⟨fault, rfl⟩

/-- A file with facts is malformed, one of its brackets is too deep, or an integer in it is too
long. -/
theorem Facts.ofBytes_eq_error {room : Nat} {bytes : Bytes} {unread : Unread}
    (h : ofBytes room bytes = .error unread) :
    (∃ fault, unread = .malformed fault) ∨ unread = .deepNesting ∨
    ∃ digits, unread = .longInteger digits ∧ Overruns room bytes (.longInteger digits) := by
  cases unread with
  | malformed fault => exact .inl ⟨fault, rfl⟩
  | deepNesting => exact .inr (.inl rfl)
  | longInteger digits =>
    have hb := (ofBytes_exactly room bytes).beyond_iff (.longInteger digits)
    exact .inr (.inr ⟨digits, rfl, hb.mp ⟨h, by simp⟩⟩)

/-! The facts -/

theorem Notebook.exists_perform_started (path : Path) (mode : Facts.Mode) (w : World) :
    ∃ w', (do
      Act.note (.startedEmpty path.text)
      Notebook.warn mode
      return OrderedMap.empty : Act Facts).perform w = (.ok OrderedMap.empty, w') := by
  cases mode <;> exact ⟨_, rfl⟩

variable [Host]

namespace Notebook

/-- The facts in a file. Where nothing is, there are none. -/
def factsIn (d : Disk) (path : Path) : Except Failure Facts :=
  if (Path.unfit? path.text).isSome then .ok OrderedMap.empty
  else
    match d.isThere path.route with
    | .error refusal => .error (.refused refusal [path.text])
    | .ok false => .ok OrderedMap.empty
    | .ok true =>
      match d.read path.route with
      | .error refusal => .error (.refused refusal [path.text])
      | .ok bytes => (Facts.ofBytes Host.factsRoom bytes).mapError .ofFacts

theorem holds_of_factsIn {d : Disk} {path : Path} {facts : Facts} (h : factsIn d path = .ok facts) :
    d.Holds path facts ∨ facts = OrderedMap.empty := by
  unfold factsIn at h
  split at h
  · exact .inr (Except.ok.inj h).symm
  · split at h
    · cases h
    · exact .inr (Except.ok.inj h).symm
    · split at h
      · cases h
      · rename_i bytes hb
        exact .inl ⟨bytes, hb, mapError_eq_ok.mp h⟩

theorem perform_readFacts {path : Path} (hn : Path.unfit? path.text = none) (mode : Facts.Mode)
    (w : World) :
    (readFacts path mode).perform w =
      match w.disk.read path.route with
      | .error refusal => (.error (.refused refusal [path.text]), w)
      | .ok bytes =>
        match Facts.ofBytes Host.factsRoom bytes with
        | .error unread => (.error (.ofFacts unread), w)
        | .ok facts =>
          (do
            warn mode
            Act.note (.loaded facts.size path.text)
            return facts : Act Facts).perform w := by
  rw [readFacts, Act.perform_submit_bind, hn]
  dsimp only
  rw [Act.perform_disk_bind, Act.perform_bind, Act.perform_granted]
  cases w.disk.read path.route with
  | error refusal => rfl
  | ok bytes =>
    simp only [mapError_ok]
    cases Facts.ofBytes Host.factsRoom bytes <;> rfl

theorem perform_readOrEmpty (path : Path) (mode : Facts.Mode) (w : World) :
    (∃ f, factsIn w.disk path = .error f ∧ (readOrEmpty path mode).perform w = (.error f, w)) ∨
    ∃ facts w', factsIn w.disk path = .ok facts ∧
      (readOrEmpty path mode).perform w = (.ok facts, w') := by
  obtain ⟨w', hw'⟩ := exists_perform_started path mode w
  simp only [readOrEmpty, factsIn]
  split
  · exact .inr ⟨_, w', rfl, hw'⟩
  · rename_i hn
    rw [Act.perform_disk_bind, Act.perform_bind, Act.perform_granted]
    cases w.disk.isThere path.route with
    | error refusal => exact .inl ⟨_, rfl, rfl⟩
    | ok isThere =>
      cases isThere with
      | false => exact .inr ⟨_, w', rfl, hw'⟩
      | true =>
        simp only [mapError_ok, if_true]
        rw [perform_readFacts (Option.not_isSome_iff_eq_none.mp hn)]
        cases w.disk.read path.route with
        | error refusal => exact .inl ⟨_, rfl, rfl⟩
        | ok bytes =>
          dsimp only
          cases Facts.ofBytes Host.factsRoom bytes with
          | error unread => exact .inl ⟨_, rfl, rfl⟩
          | ok facts => cases mode <;> exact .inr ⟨facts, _, rfl, rfl⟩

end Notebook

namespace Shell

/-! The notebook -/

/-- The lexicon in a file. -/
def storedLexicon (d : Disk) (file : Text) : Except Failure Lexicon :=
  match Path.unfit? file with
  | some unfit => .error (.ofUnfit unfit)
  | none =>
    match d.read (Route.ofText file) with
    | .error refusal => .error (.refused refusal [file])
    | .ok bytes => (Lexicon.ofFile Host.lexiconRoom file bytes).mapError .ofLexicon

/-- The lexicon in the named file. Without a name, and with an empty one, it is the Italian one. -/
def lexiconIn (d : Disk) : Option Text → Except Failure Lexicon
  | none => .ok Lexicon.italian
  | some [] => .ok Lexicon.italian
  | some file => storedLexicon d file

/-- What a command has before it, from the files on the disk, or why it has nothing. -/
def notebookIn (d : Disk) (setting : Setting) : Except Failure Notebook :=
  match lexiconIn d setting.lexicon, setting.path with
  | .error f, _ => .error f
  | .ok _, none => .error .noPath
  | .ok l, some path =>
    (Notebook.factsIn d (Path.ofText path)).map fun facts =>
      ⟨Path.ofText path, l, setting.mode, facts⟩

theorem perform_readLexicon (file : Text) (w : World) :
    (readLexicon file).perform w = (storedLexicon w.disk file, w) := by
  rw [readLexicon, storedLexicon, Act.perform_submit_bind]
  cases Path.unfit? file with
  | some unfit => rfl
  | none =>
    dsimp only
    rw [Act.perform_disk_bind, Act.perform_bind, Act.perform_granted]
    cases w.disk.read (Route.ofText file) with
    | error refusal => rfl
    | ok bytes =>
      simp only [mapError_ok]
      cases Lexicon.ofFile Host.lexiconRoom file bytes <;> rfl

theorem perform_lexiconOf (name : Option Text) (w : World) :
    (lexiconOf name).perform w = (lexiconIn w.disk name, w) := by
  match name with
  | none => rfl
  | some [] => rfl
  | some (c :: file) => exact perform_readLexicon (c :: file) w

/-- A command starts with what is in its files. If it cannot, nothing has happened. -/
theorem perform_openNotebook (setting : Setting) (w : World) :
    (∃ f, notebookIn w.disk setting = .error f ∧
      (openNotebook setting).perform w = (.error f, w)) ∨
    ∃ n w', notebookIn w.disk setting = .ok n ∧
      (openNotebook setting).perform w = (.ok n, w') := by
  rw [openNotebook, notebookIn, Act.perform_bind, perform_lexiconOf]
  cases lexiconIn w.disk setting.lexicon with
  | error f => exact .inl ⟨f, rfl, rfl⟩
  | ok l =>
    cases setting.path with
    | none => exact .inl ⟨.noPath, rfl, rfl⟩
    | some path =>
      have ho : (pathOf (some path) >>= fun p => Notebook.openAt p l setting.mode).perform w =
          (Notebook.readOrEmpty (Path.ofText path) setting.mode >>= fun facts =>
            return ⟨Path.ofText path, l, setting.mode, facts⟩).perform w := rfl
      dsimp only
      rw [ho, Act.perform_bind]
      obtain ⟨f, hf, hr⟩ | ⟨facts, w', hf, hr⟩ :=
        Notebook.perform_readOrEmpty (Path.ofText path) setting.mode w <;> rw [hf, hr]
      · exact .inl ⟨f, rfl, rfl⟩
      · exact .inr ⟨_, w', rfl, rfl⟩

/-- A notebook has the facts in the file of the setting, or none. -/
theorem notebookIn_eq_ok {d : Disk} {setting : Setting} {n : Notebook}
    (h : notebookIn d setting = .ok n) : ∃ path, setting.path = some path ∧
      n.path = Path.ofText path ∧ (d.Holds n.path n.facts ∨ n.facts = OrderedMap.empty) := by
  unfold notebookIn at h
  split at h
  · cases h
  · cases h
  · rename_i l path hl hp
    obtain ⟨facts, hf, rfl⟩ := map_eq_ok.mp h
    exact ⟨path, hp, rfl, Notebook.holds_of_factsIn hf⟩

end Shell

end Syllogism
