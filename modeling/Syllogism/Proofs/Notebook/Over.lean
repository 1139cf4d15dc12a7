import Syllogism.Tool
import Syllogism.Proofs.Shell.Saved

/-! A conversation in Italian is over with the sentence after which the facts are saved, and with no
other, as long as all facts were told in it. -/

namespace Syllogism

def Notice.isSave : Notice → Bool
  | .event (.saved ..) => true
  | _ => false

/-- How often facts were saved. -/
def World.saves (w : World) : Nat := w.notices.countP Notice.isSave

namespace Notebook

variable {n n' : Notebook} {sentence a : Text} {w w' : World} {u : Unit}

/-- A response brings no save with it. -/
theorem saves_of_perform_noteAll {c : Conversation} {facts : Facts}
    (h : (Act.noteAll (c.respond facts sentence).events).perform w = (.ok u, w')) :
    w'.saves = w.saves := by
  have he : ((c.respond facts sentence).events.map Notice.event).countP Notice.isSave = 0 := by
    unfold Conversation.respond
    split
    · rfl
    · cases c.lexicon.reading? sentence with
      | none => rfl
      | some reading => cases reading <;> rfl
  rw [World.saves, (Act.of_perform_noteAll h).2, List.countP_append, he, Nat.add_zero, World.saves]

variable [Host]

theorem saves_of_perform_save (h : n.save.perform w = (.ok u, w')) : w'.saves = w.saves + 1 := by
  rw [World.saves, (of_perform_writeFacts h).2.2, List.countP_append]
  rfl

theorem saves_of_perform_answer (h : (n.answer sentence).perform w = (.ok (n', a), w')) :
    w.saves < w'.saves ↔ (n.conversation.respond n.facts sentence).farewell = true := by
  obtain ⟨-, -, w₁, hn, hs⟩ := of_perform_answer_steps h
  have hw := saves_of_perform_noteAll hn
  split at hs
  · rename_i hf
    have hs := saves_of_perform_save hs
    simp only [hf, iff_true]
    omega
  · rename_i hf
    rw [hs, hw]
    simp [hf]

/-- With a sentence that saves, the file comes to hold the facts after it. Any other leaves the disk as
it was. -/
theorem disk_of_perform_answer (hp : Text.of "." ∉ n.path.names)
    (h : (n.answer sentence).perform w = (.ok (n', a), w')) :
    if w.saves < w'.saves then w'.disk.Holds n.path n'.facts else w'.disk = w.disk := by
  have hs := saves_of_perform_answer h
  obtain ⟨rfl, -, hd⟩ := of_perform_answer hp h
  simp only [hs]
  split at hd
  · rename_i hf
    rw [if_pos hf, (Conversation.respond_farewell hf).1]
    exact hd
  · rename_i hf
    rw [if_neg hf]
    exact hd

/-- A notebook in Italian with facts that were told. -/
structure Told (n : Notebook) : Prop where
  lexicon : n.lexicon = Lexicon.italian
  tidy : Facts.Tidy n.lexicon.key n.facts

theorem Told.answer (hn : n.Told) (h : (n.answer sentence).perform w = (.ok (n', a), w')) :
    n'.Told ∧ (n'.isOver a = true ↔ w.saves < w'.saves) := by
  rw [saves_of_perform_answer h, ← Conversation.goodbye_iff_farewell hn.lexicon hn.tidy]
  obtain ⟨rfl, ha, -⟩ := of_perform_answer_steps h
  refine ⟨⟨hn.lexicon, Conversation.tidy_respond hn.tidy sentence⟩, ?_⟩
  rw [ha, Option.some.injEq]
  exact beq_iff_eq

end Notebook

namespace Shell

variable [Host] {n n₁ : Notebook} {sentence : Text} {ended : Bool} {w w₁ : World}

theorem told_of_chatLine (hn : n.Told)
    (h : (chatLine n sentence).perform w = (.ok (n₁, ended), w₁)) :
    n₁.Told ∧ (ended = true ↔ w.saves < w₁.saves) := by
  obtain ⟨a, w₂, ha, rfl, -, hw⟩ := of_perform_chatLine_steps h
  rw [World.saves, World.saves, hw]
  exact hn.answer ha

/-- Answers the sentences up to the one with which the facts are saved. The loop looks at no
answer. -/
def untilSaved (ask : Act Unit) (finish : Notebook → Act Unit) (n : Notebook) :
    (sentences : List Text) → Act Notebook
  | [] => do
    ask
    finish n
    return n
  | sentence :: rest => do
    ask
    let before := (← get).saves
    let (n, _) ← chatLine n sentence
    if before < (← get).saves then return n else untilSaved ask finish n rest

/-- Two ways to go on that agree after a line, one by the answer and one by the saves. -/
theorem perform_line_eq {next next' : Notebook → Act Notebook} (hn : n.Told)
    (h : ∀ n₁ w, n₁.Told → (next n₁).perform w = (next' n₁).perform w) (w : World) :
    (do
      let (n, ended) ← chatLine n sentence
      if ended then return n else next n : Act Notebook).perform w =
    (do
      let before := (← get).saves
      let (n, _) ← chatLine n sentence
      if before < (← get).saves then return n else next' n : Act Notebook).perform w := by
  rw [Act.perform_get_bind, Act.perform_bind, Act.perform_bind]
  rcases hl : (chatLine n sentence).perform w with ⟨failure | ⟨n₁, ended⟩, w₁⟩
  · rfl
  · obtain ⟨hn₁, he⟩ := told_of_chatLine hn hl
    simp only [Act.perform_get_bind, ← he]
    cases ended with
    | true => rfl
    | false => exact h n₁ w₁ hn₁

/-- A loop that stops at the goodbye stops at the first save. -/
theorem perform_eq_untilSaved {talk : Notebook → List Text → Act Notebook} {ask : Act Unit}
    {finish : Notebook → Act Unit}
    (hnil : ∀ n, talk n [] = do
      ask
      finish n
      return n)
    (hcons : ∀ n sentence rest, talk n (sentence :: rest) = do
      ask
      let (n, ended) ← chatLine n sentence
      if ended then return n else talk n rest)
    (hn : n.Told) (sentences : List Text) (w : World) :
    (talk n sentences).perform w = (untilSaved ask finish n sentences).perform w := by
  induction sentences generalizing n w with
  | nil =>
    rw [hnil]
    rfl
  | cons sentence sentences ih =>
    rw [hcons, untilSaved, Act.perform_bind, Act.perform_bind]
    rcases ask.perform w with ⟨failure | u, w₁⟩
    · rfl
    · exact perform_line_eq hn (fun n₁ w hn₁ => ih hn₁ w) w₁

theorem perform_tell (hn : n.Told) (sentences : List Text) (w : World) :
    (tell n sentences).perform w =
      (untilSaved (pure ()) Notebook.save n sentences).perform w :=
  perform_eq_untilSaved (fun _ => rfl) (fun _ _ _ => rfl) hn sentences w

theorem perform_chat (hn : n.Told) (fault : Option Utf8.Fault) (lines : List Text) (w : World) :
    (chat fault n lines).perform w =
      (untilSaved (Act.print prompt) (chatEnd fault) n lines).perform w :=
  perform_eq_untilSaved (fun _ => rfl) (fun _ _ _ => rfl) hn lines w

end Shell

namespace Notebook

section

variable [Host]

theorem ended_of_process {n n' : Notebook} {sentence : Text} {v : Json} {w w' : World}
    (hn : n.Told) (h : (Tool.call n (.process sentence)).perform w = (.ok (n', v), w')) :
    v.member? "ended" = some (.bool (decide (w.saves < w'.saves))) ∧
      (w.saves < w'.saves ↔ (n.conversation.respond n.facts sentence).farewell = true) := by
  unfold Tool.call at h
  obtain ⟨⟨n₁, answer⟩, w₁, ha, h⟩ := Act.of_perform_bind h
  obtain ⟨he, rfl⟩ := Act.of_perform_pure h
  obtain ⟨-, rfl⟩ := Prod.mk.inj he
  refine ⟨?_, saves_of_perform_answer ha⟩
  rw [← Bool.eq_iff_iff.mpr ((hn.answer ha).2.trans decide_eq_true_iff.symm)]
  simp only [Json.ofMembers, List.map_cons, Json.member?, OrderedMap.valueIn?]
  rw [if_neg (by decide), if_neg (by decide), if_pos trivial]

/-- In Italian, and with facts that were told since there were none, only a farewell has the goodbye
for an answer. So each loop stops with the sentence that saves, after which the file holds the facts,
and the tool reports an end for just those sentences. -/
theorem over_iff_saved (mode : Facts.Mode) (told : List Text) (path : Path) :
    let c : Conversation := ⟨Lexicon.italian, Lexicon.italian.key, mode.within Host.spoken⟩
    let n : Notebook := ⟨path, Lexicon.italian, mode, c.after OrderedMap.empty told⟩
    (∀ sentence, (c.respond n.facts sentence).answer = some Lexicon.italianReplies.goodbye ↔
      Text.blank sentence = false ∧
        ∃ command, Lexicon.italian.reading? sentence = some (.farewell command)) ∧
    (∀ sentences w, (Shell.tell n sentences).perform w =
      (Shell.untilSaved (pure ()) Notebook.save n sentences).perform w) ∧
    (∀ fault lines w, (Shell.chat fault n lines).perform w =
      (Shell.untilSaved (Act.print Shell.prompt) (Shell.chatEnd fault) n lines).perform w) ∧
    (Text.of "." ∉ path.names → ∀ sentence n' answer w w',
      (n.answer sentence).perform w = (.ok (n', answer), w') →
        if w.saves < w'.saves then w'.disk.Holds path n'.facts else w'.disk = w.disk) ∧
    ∀ sentence n' v w w', (Tool.call n (.process sentence)).perform w = (.ok (n', v), w') →
      v.member? "ended" = some (.bool (decide (w.saves < w'.saves))) ∧
      (w.saves < w'.saves ↔ Text.blank sentence = false ∧
        ∃ command, Lexicon.italian.reading? sentence = some (.farewell command)) := by
  intro c n
  have hn : n.Told := ⟨rfl, Conversation.tidy_after Facts.tidy_empty told⟩
  have hf : ∀ sentence, (c.respond n.facts sentence).farewell = true ↔
      Text.blank sentence = false ∧
        ∃ command, Lexicon.italian.reading? sentence = some (.farewell command) :=
    fun sentence => Conversation.respond_farewell_iff
  refine ⟨?_, Shell.perform_tell hn, Shell.perform_chat hn, ?_, ?_⟩
  · intro sentence
    rw [← hf]
    exact Conversation.goodbye_iff_farewell rfl hn.tidy
  · intro hp sentence n' answer w w' h
    exact disk_of_perform_answer hp h
  · intro sentence n' v w w' h
    rw [← hf]
    exact ended_of_process hn h

end

section

open scoped Host

/-- The answer Ciao, without a full stop, ends nothing. A farewell does. -/
theorem over_iff_saved_ciao :
    let c : Conversation := ⟨Lexicon.italian, Lexicon.italian.key, .guarded⟩
    let n : Notebook := ⟨Path.ofText "c.js", Lexicon.italian, .guarded,
      c.after OrderedMap.empty ["Un saluto è Ciao."]⟩
    let w := World.on Disk.empty
    (∃ n' v w', (Tool.call n (.process "Cosa sai di un saluto?")).perform w = (.ok (n', v), w') ∧
      v.member? "ended" = some (.bool false)) ∧
    ∃ n' v w', (Tool.call n (.process "Ciao, saluto!")).perform w = (.ok (n', v), w') ∧
      v.member? "ended" = some (.bool true) := by
  intro c n w
  obtain ⟨-, -, -, -, h⟩ := over_iff_saved .guarded ["Un saluto è Ciao."] (Path.ofText "c.js")
  constructor
  · have ho : ((Tool.call n (.process "Cosa sai di un saluto?")).perform w).1.toOption.isSome := by
      decide +kernel
    have hr : Lexicon.italian.reading? "Cosa sai di un saluto?" = some (.question "un saluto") := by
      decide +kernel
    obtain ⟨⟨n', v⟩, w', hc⟩ := Act.exists_perform_of_isSome ho
    obtain ⟨he, hs⟩ := h _ _ _ _ _ hc
    refine ⟨n', v, w', hc, ?_⟩
    rw [he, decide_eq_false (mt hs.mp ?_)]
    rintro ⟨-, command, hf⟩
    rw [hr] at hf
    cases hf
  · have ho : ((Tool.call n (.process "Ciao, saluto!")).perform w).1.toOption.isSome := by
      decide +kernel
    obtain ⟨⟨n', v⟩, w', hc⟩ := Act.exists_perform_of_isSome ho
    obtain ⟨he, hs⟩ := h _ _ _ _ _ hc
    refine ⟨n', v, w', hc, ?_⟩
    rw [he, decide_eq_true (hs.mpr ⟨by decide +kernel, "CIAO", by decide +kernel⟩)]

end

end Notebook

end Syllogism
