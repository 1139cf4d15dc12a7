import Mathlib.Logic.Function.Basic
import Syllogism.Proofs.Facts.Unguarded
import Syllogism.Proofs.Notebook
import Syllogism.Proofs.Sentence.Questions

/-! Sessions. The facts lie in memory, and two remember where: the session, which is asked, saved
and loaded, and the interpreter of its sentences. Whatever is called, in whatever order, and
whatever fails, both remember one place, and the session is a notebook. -/

namespace Syllogism

/-- Facts at places in memory, of which the first `used` are taken. The session has its facts at the
place `own`, the interpreter those that sentences are about at the place `spoken`. -/
structure Session where
  path : Path
  lexicon : Lexicon
  mode : Facts.Mode
  memory : Nat → Facts
  used : Nat
  own : Nat
  spoken : Nat

/-- What a session can be called for. Between two calls anything else may change the disk. -/
inductive Call where
  | process (sentence : Text)
  | query (subject : Text)
  | inverse (attr : Text)
  | save (path : Option Text)
  | load (path : Option Text)
  | outside (d : Disk)

namespace Session

/-- A step that can fail. What it did before to the session and to the world stays done. -/
abbrev Step (α : Type) := ExceptT Failure (StateM (Session × World)) α

namespace Step

def perform {α : Type} (a : Step α) (s : Session) (w : World) :
    Except Failure α × Session × World := a.run.run (s, w)

def act {α : Type} (a : Act α) : Step α :=
  ExceptT.mk fun sw => ((a.perform sw.2).1, sw.1, (a.perform sw.2).2)

def session : Step Session := return (← get).1

def change (f : Session → Session) : Step Unit := modify fun sw => (f sw.1, sw.2)

end Step

open Step

/-- The notebook that the session sees. -/
def notebook (s : Session) : Notebook := ⟨s.path, s.lexicon, s.mode, s.memory s.own⟩

/-- The notebook that the interpreter sees. -/
def interpreter (s : Session) : Notebook := ⟨s.path, s.lexicon, s.mode, s.memory s.spoken⟩

/-- A new session, with an interpreter of the same facts. -/
def of (n : Notebook) : Session := ⟨n.path, n.lexicon, n.mode, fun _ => n.facts, 1, 0, 0⟩

/-- A new place with facts. -/
def store (facts : Facts) : Step Nat := do
  let place := (← session).used
  change fun s => { s with memory := Function.update s.memory place facts, used := place + 1 }
  return place

section

variable [Host]

def query (subject : Text) : Step (List Text) := do
  act ((← session).notebook.whatIs subject)

def inverse (attr : Text) : Step (List Text) := do
  act ((← session).notebook.whoIs attr)

/-- Writes the facts of the session to a path, or to its own. -/
def save (path : Option Text) : Step Unit := do
  let n := (← session).notebook
  act (Notebook.writeFacts n.facts ((path.map Path.ofText).getD n.path))

/-- Reads facts to a new place, and tells the session and then the interpreter of it. -/
def load (path : Option Text) : Step Unit := do
  let n := (← session).notebook
  let place ← store (← act (Notebook.readFacts ((path.map Path.ofText).getD n.path) n.mode))
  change fun s => { s with own := place }
  change fun s => { s with spoken := place }

/-- Answers a sentence about the facts of the interpreter, which change in their place. A farewell
saves those of the session. -/
def process (sentence : Text) : Step Text := do
  let n := (← session).interpreter
  let r := n.conversation.respond n.facts sentence
  act (Act.noteAll r.events)
  if r.farewell then save none
  change fun s => { s with memory := Function.update s.memory s.spoken r.facts }
  match r.answer with
  | none => throw .deepQuestion
  | some answer => return answer

def call : Call → Step (List Text)
  | .process sentence => do return [← process sentence]
  | .query subject => query subject
  | .inverse attr => inverse attr
  | .save path => do
    save path
    return []
  | .load path => do
    load path
    return []
  | .outside d => do
    act (Act.setDisk d)
    return []

/-- The session and the world after some calls, each of which may fail. -/
def after (s : Session) (w : World) (calls : List Call) : Session × World :=
  calls.foldl (fun sw c => ((call c).perform sw.1 sw.2).2) (s, w)

end

end Session

namespace Notebook

/-- The notebook that a step leaves, which is the one before it if it fails. -/
def left {α : Type} (n : Notebook) (r : Except Failure (Notebook × α)) : Notebook :=
  (r.toOption.map Prod.fst).getD n

section

variable [Host]

def call (n : Notebook) : Call → Act (Notebook × List Text)
  | .process sentence => do
    let (n, answer) ← n.answer sentence
    return (n, [answer])
  | .query subject => return (n, ← n.whatIs subject)
  | .inverse attr => return (n, ← n.whoIs attr)
  | .save path => do
    writeFacts n.facts ((path.map Path.ofText).getD n.path)
    return (n, [])
  | .load path => return (← n.load ((path.map Path.ofText).getD n.path), [])
  | .outside d => do
    Act.setDisk d
    return (n, [])

/-- The notebook and the world after some calls. -/
def afterCalls (n : Notebook) (w : World) (calls : List Call) : Notebook × World :=
  calls.foldl (fun nw c => let r := (nw.1.call c).perform nw.2; (nw.1.left r.1, r.2)) (n, w)

end

end Notebook

namespace Session

open Step

variable {α β : Type} {s s' : Session} {n : Notebook} {w w' : World}

theorem perform_bind (a : Step α) (f : α → Step β) (s : Session) (w : World) :
    (a >>= f).perform s w = match a.perform s w with
      | (.ok x, s₁, w₁) => (f x).perform s₁ w₁
      | (.error failure, s₁, w₁) => (.error failure, s₁, w₁) := by
  show (match a.perform s w with | (x, sw) => ExceptT.bindCont f x sw) = _
  rcases a.perform s w with ⟨x | x, s₁, w₁⟩ <;> rfl

theorem perform_act (a : Act α) (s : Session) (w : World) :
    (act a).perform s w = ((a.perform w).1, s, (a.perform w).2) := rfl

theorem perform_session_bind (f : Session → Step β) (s : Session) (w : World) :
    (session >>= f).perform s w = (f s).perform s w := rfl

/-! One place -/

/-- The session and its interpreter have one place for facts, and there they see this notebook. -/
structure Shows (s : Session) (n : Notebook) : Prop where
  place : s.own = s.spoken
  notebook : s.notebook = n

theorem Shows.interpreter (h : s.Shows n) : s.interpreter = n := by
  rw [← h.notebook, Session.interpreter, ← h.place, Session.notebook]

theorem shows_of (n : Notebook) : (of n).Shows n := ⟨rfl, rfl⟩

/-- What is written to the place of the interpreter, the session sees. -/
theorem Shows.write (h : s.Shows n) (facts : Facts) :
    Shows { s with memory := Function.update s.memory s.spoken facts } { n with facts := facts } := by
  refine ⟨h.place, ?_⟩
  obtain rfl := h.notebook
  simp only [Session.notebook, h.place, Function.update_self]

/-- A step of a session comes to what a step of the notebook comes to that it shows. -/
def Follows (n : Notebook) (a : Act (Notebook × α)) (b : Step α) : Prop :=
  ∀ s w, s.Shows n → ∃ s', s'.Shows (n.left (a.perform w).1) ∧
    b.perform s w = ((a.perform w).1.map Prod.snd, s', (a.perform w).2)

section Follows

variable {a : Act (Notebook × α)} {b : Step α}

/-- Both may look at the facts first. -/
theorem follows_of_session {f : Session → Step α}
    (h : ∀ s, s.Shows n → Follows n a (f s)) : Follows n a (session >>= f) :=
  fun s w hs => h s hs s w hs

theorem Follows.act_bind (before : Act Unit) (h : Follows n a b) :
    Follows n (before >>= fun _ => a) (act before >>= fun _ => b) := by
  intro s w hs
  rw [Act.perform_bind, perform_bind, perform_act]
  rcases before.perform w with ⟨f | u, w₁⟩
  · exact ⟨s, hs, rfl⟩
  · exact h s w₁ hs

theorem Follows.map (f : α → β) (h : Follows n a b) :
    Follows n (do let (n, x) ← a; return (n, f x)) (do return f (← b)) := by
  intro s w hs
  obtain ⟨s', hs', hb⟩ := h s w hs
  rw [Act.perform_bind, perform_bind, hb]
  rcases hr : a.perform w with ⟨f | ⟨n', x⟩, w₁⟩ <;> rw [hr] at hs'
  · exact ⟨s', hs', rfl⟩
  · exact ⟨s', hs', rfl⟩

theorem follows_act (a : Act α) : Follows n (return (n, ← a)) (act a) := by
  intro s w hs
  rw [Act.perform_bind, perform_act]
  rcases a.perform w with ⟨f | x, w₁⟩
  · exact ⟨s, hs, rfl⟩
  · exact ⟨s, hs, rfl⟩

end Follows

/-- The end of an answer. Without one, the facts that are written are those that were there. -/
theorem follows_answered {r : Response} (hr : r.answer = none → r.facts = n.facts) :
    Follows n
      (match r.answer with
        | none => Act.fail .deepQuestion
        | some answer => return ({ n with facts := r.facts }, answer))
      (do
        change fun s => { s with memory := Function.update s.memory s.spoken r.facts }
        match r.answer with
        | none => throw .deepQuestion
        | some answer => return answer) := by
  intro s w hs
  have hw := hs.write r.facts
  cases ha : r.answer with
  | none =>
    rw [hr ha] at hw ⊢
    exact ⟨_, hw, rfl⟩
  | some answer => exact ⟨_, hw, rfl⟩

/-- After facts were read to a new place, both look there. -/
theorem shows_move (s : Session) (facts : Facts) :
    Shows { s with
        memory := Function.update s.memory s.used facts, used := s.used + 1, own := s.used,
        spoken := s.used } { s.notebook with facts := facts } := by
  refine ⟨rfl, ?_⟩
  simp only [Session.notebook, Function.update_self]

/-- What is found, one item per line, or else that nothing is known. -/
def listed (found : List Text) : Text :=
  if found = [] then Text.of "Non so nulla." else Text.joinLines found

theorem respond_ask {c : Conversation} (hc : c.lexicon = Lexicon.italian) {x : Text}
    (hx : x.Trimmed) (hm : ∀ m, x.getLast? = some m → Text.isMark m = false) (facts : Facts) :
    ∃ events, c.respond facts (Text.of "COSA SAI SU " ++ x) = ⟨facts, events, false,
      (facts.whatIs? c.key c.manner x).map listed⟩ := by
  have hr : c.lexicon.reading? (Text.of "COSA SAI SU " ++ x) = some (.question x) := by
    rw [hc, Lexicon.reading?_ask, Text.stripMarks_eq_self hx hm]
  refine ⟨[.understood (.question x) (Text.of "COSA SAI SU " ++ x)], ?_⟩
  rw [Conversation.respond_of_reading? hr]
  simp only [Conversation.respondTo, Conversation.report, List.isEmpty_iff, hc]
  rfl

section

variable [Host]

theorem perform_query (subject : Text) (s : Session) (w : World) :
    (query subject).perform s w =
      (((s.notebook.whatIs subject).perform w).1, s, ((s.notebook.whatIs subject).perform w).2) :=
  rfl

theorem perform_save (path : Option Text) (s : Session) (w : World) :
    (save path).perform s w =
      (let a := Notebook.writeFacts s.notebook.facts ((path.map Path.ofText).getD s.path)
      ((a.perform w).1, s, (a.perform w).2)) := rfl

theorem perform_load (path : Option Text) (s : Session) (w : World) :
    (load path).perform s w =
      match (Notebook.readFacts ((path.map Path.ofText).getD s.path) s.mode).perform w with
      | (.ok facts, w₁) => (.ok (), { s with
          memory := Function.update s.memory s.used facts, used := s.used + 1, own := s.used,
          spoken := s.used }, w₁)
      | (.error f, w₁) => (.error f, s, w₁) := by
  rw [load, perform_session_bind, perform_bind, perform_act]
  simp only [notebook]
  rcases (Notebook.readFacts ((path.map Path.ofText).getD s.path) s.mode).perform w with
    ⟨f | facts, w₁⟩
  · rfl
  · rfl

theorem Follows.save_bind {a : Act (Notebook × α)} {b : Step α} (path : Option Text)
    (h : Follows n a b) :
    Follows n
      (Notebook.writeFacts n.facts ((path.map Path.ofText).getD n.path) >>= fun _ => a)
      (save path >>= fun _ => b) := by
  rw [save, bind_assoc]
  refine follows_of_session fun s hs => ?_
  rw [hs.notebook]
  exact h.act_bind _

theorem follows_process (n : Notebook) (sentence : Text) :
    Follows n (n.answer sentence) (process sentence) := by
  refine follows_of_session fun s hs => ?_
  simp only [hs.interpreter, Notebook.answer]
  refine Follows.act_bind _ ?_
  have ht := follows_answered (r := n.conversation.respond n.facts sentence)
    Conversation.facts_respond_of_none
  split
  · exact ht.save_bind none
  · exact ht

theorem follows_load (n : Notebook) (path : Option Text) :
    Follows n (return (← n.load ((path.map Path.ofText).getD n.path), ())) (load path) := by
  intro s w hs
  obtain rfl := hs.notebook
  have hp : s.notebook.path = s.path := rfl
  have hm : s.notebook.mode = s.mode := rfl
  rw [Act.perform_bind, Notebook.load, Act.perform_bind, perform_load, hp, hm]
  rcases (Notebook.readFacts ((path.map Path.ofText).getD s.path) s.mode).perform w with
    ⟨f | facts, w₁⟩
  · exact ⟨s, hs, rfl⟩
  · exact ⟨_, shows_move s facts, rfl⟩

/-- Each call of a session is one of its notebook. -/
theorem follows_call (n : Notebook) (c : Call) : Follows n (n.call c) (call c) := by
  have hdone : Follows n (return (n, ([] : List Text))) (return []) := fun s w hs => ⟨s, hs, rfl⟩
  cases c with
  | process sentence => exact (follows_process n sentence).map fun answer => [answer]
  | query subject =>
    refine follows_of_session fun s hs => ?_
    rw [hs.notebook]
    exact follows_act _
  | inverse attr =>
    refine follows_of_session fun s hs => ?_
    rw [hs.notebook]
    exact follows_act _
  | save path => exact hdone.save_bind path
  | load path =>
    have h := (follows_load n path).map fun _ => ([] : List Text)
    rw [bind_assoc] at h
    exact h
  | outside d => exact hdone.act_bind _

/-- Whatever is called and whatever fails, the session shows what its notebook has become. -/
theorem shows_after (h : s.Shows n) (w : World) (calls : List Call) :
    (after s w calls).1.Shows (n.afterCalls w calls).1 ∧
      (after s w calls).2 = (n.afterCalls w calls).2 := by
  -- `Shows` is all that a call needs of the session, and what it leaves
  induction calls generalizing s n w with
  | nil => exact ⟨h, rfl⟩
  | cons c calls ih =>
    obtain ⟨s', hs', hc⟩ := follows_call n c s w h
    have ha : after s w (c :: calls) = after s' ((n.call c).perform w).2 calls := by
      rw [after, List.foldl_cons, hc, after]
    rw [ha]
    exact ih hs' _

/-! What the calls leave -/

/-- A call changes nothing of a notebook but its facts. -/
theorem left_eq (n : Notebook) (c : Call) (w : World) :
    ∃ facts, n.left ((n.call c).perform w).1 = { n with facts := facts } := by
  rcases hr : (n.call c).perform w with ⟨f | ⟨n', lines⟩, w'⟩
  · exact ⟨n.facts, rfl⟩
  · show ∃ facts, n' = { n with facts := facts }
    cases c with
    | process sentence =>
      obtain ⟨⟨n₁, a⟩, w₁, ha, hr⟩ := Act.of_perform_bind hr
      cases hr
      exact ⟨_, (Notebook.of_perform_answer_steps ha).1⟩
    | load path =>
      obtain ⟨n₁, w₁, hl, hr⟩ := Act.of_perform_bind hr
      obtain ⟨facts, w₂, -, hl⟩ := Act.of_perform_bind hl
      cases hl
      cases hr
      exact ⟨facts, rfl⟩
    | query subject | inverse attr | save path | outside d =>
      obtain ⟨_, w₁, -, hr⟩ := Act.of_perform_bind hr
      cases hr
      exact ⟨n.facts, rfl⟩

theorem afterCalls_eq (n : Notebook) (w : World) (calls : List Call) :
    ∃ facts, (n.afterCalls w calls).1 = { n with facts := facts } := by
  induction calls generalizing n w with
  | nil => exact ⟨n.facts, rfl⟩
  | cons c calls ih =>
    obtain ⟨facts, h⟩ := left_eq n c w
    obtain ⟨facts', h'⟩ := ih (n.left ((n.call c).perform w).1) ((n.call c).perform w).2
    exact ⟨facts', h'.trans (by rw [h])⟩

/-! The two ways to ask -/

/-- A question that is asked by itself. -/
theorem perform_query_eq (subject : Text) (s : Session) (w : World) :
    ((query subject).perform s w).1 =
      match s.notebook.facts.whatIs? s.notebook.lexicon.key (s.mode.within Host.asked) subject with
      | none => .error .deepQuestion
      | some found => .ok found := by
  rw [perform_query, Notebook.whatIs]
  simp only [Session.notebook]
  cases (s.memory s.own).whatIs? s.lexicon.key (s.mode.within Host.asked) subject with
  | none => rfl
  | some found => rfl

/-- The same question in a sentence. -/
theorem perform_process_ask {x : Text} (hs : s.Shows n) (hl : n.lexicon = Lexicon.italian)
    (hx : x.Trimmed) (hm : ∀ m, x.getLast? = some m → Text.isMark m = false) (w : World) :
    ((process (Text.of "COSA SAI SU " ++ x)).perform s w).1 =
      match n.facts.whatIs? n.lexicon.key (n.mode.within Host.spoken) x with
      | none => .error .deepQuestion
      | some found => .ok (listed found) := by
  obtain ⟨s', -, hp⟩ := follows_process n (Text.of "COSA SAI SU " ++ x) s w hs
  obtain ⟨events, hr⟩ := respond_ask (c := n.conversation) hl hx hm n.facts
  have hq : n.facts.whatIs? n.conversation.key n.conversation.manner x =
    n.facts.whatIs? n.lexicon.key (n.mode.within Host.spoken) x := rfl
  rw [hp]
  simp only [Notebook.answer, hr, hq]
  cases n.facts.whatIs? n.lexicon.key (n.mode.within Host.spoken) x with
  | none => rfl
  | some found => rfl

/-- A guarded question is answered in both ways, and alike. An unguarded one is answered alike
wherever it is answered in both. -/
theorem asked_alike {x : Text} (hs : s.Shows n) (hl : n.lexicon = Lexicon.italian)
    (hx : x.Trimmed) (hm : ∀ m, x.getLast? = some m → Text.isMark m = false) (w : World) :
    (n.mode = .guarded → ∃ found, ((query x).perform s w).1 = .ok found ∧
      ((process (Text.of "COSA SAI SU " ++ x)).perform s w).1 = .ok (listed found)) ∧
    ∀ found answer, ((query x).perform s w).1 = .ok found →
      ((process (Text.of "COSA SAI SU " ++ x)).perform s w).1 = .ok answer →
        answer = listed found := by
  have hmode : s.mode = n.mode := congrArg Notebook.mode hs.notebook
  rw [perform_query_eq, perform_process_ask hs hl hx hm, hs.notebook, hmode]
  constructor
  · intro hg
    rw [hg]
    exact ⟨_, rfl, rfl⟩
  · intro found answer hf ha
    split at hf
    · cases hf
    · rename_i found₁ hf₁
      obtain rfl := Except.ok.inj hf
      split at ha
      · cases ha
      · rename_i found₂ hf₂
        obtain rfl := Except.ok.inj ha
        rw [Facts.whatIs?_unique hf₁ hf₂]

theorem load_cases (hs : s.Shows n) (path : Option Text) (w : World) :
    (∃ f w', (load path).perform s w = (.error f, s, w')) ∨
    ∃ facts s' w', (load path).perform s w = (.ok (), s', w') ∧
      w.disk.Holds ((path.map Path.ofText).getD n.path) facts ∧
      s'.Shows { n with facts := facts } := by
  obtain rfl := hs.notebook
  rw [perform_load]
  rcases hr : (Notebook.readFacts ((path.map Path.ofText).getD s.path) s.mode).perform w with
    ⟨f | facts, w₁⟩
  · exact .inl ⟨f, w₁, rfl⟩
  · exact .inr ⟨facts, _, w₁, rfl, (Notebook.of_perform_readFacts hr).2, shows_move s facts⟩

/-- Whatever is called in a session in Italian, and whatever of it fails, the session and its
interpreter have one place for facts, and are a notebook. So the sentence that asks for a phrase is
answered with what is found for the phrase: always if questions are guarded, and otherwise wherever
neither way to ask comes to the end of its room. A save leaves the session as it is, and so does a
load that fails. One that does not gives both the facts of the file. -/
theorem seen_by_both (path : Path) (mode : Facts.Mode) (facts : Facts) (w₀ : World)
    (calls : List Call) :
    let n₀ : Notebook := ⟨path, Lexicon.italian, mode, facts⟩
    let n := (n₀.afterCalls w₀ calls).1
    let s := (after (of n₀) w₀ calls).1
    let w := (after (of n₀) w₀ calls).2
    (s.own = s.spoken ∧ s.notebook = n ∧ s.interpreter = n ∧ w = (n₀.afterCalls w₀ calls).2) ∧
    (∀ x : Text, x.Trimmed → (∀ m, x.getLast? = some m → Text.isMark m = false) →
      (mode = .guarded → ∃ found, ((query x).perform s w).1 = .ok found ∧
        ((process (Text.of "COSA SAI SU " ++ x)).perform s w).1 = .ok (listed found)) ∧
      ∀ found answer, ((query x).perform s w).1 = .ok found →
        ((process (Text.of "COSA SAI SU " ++ x)).perform s w).1 = .ok answer →
          answer = listed found) ∧
    (∀ p, ((save p).perform s w).2.1 = s) ∧
    ∀ p, (∃ f w', (load p).perform s w = (.error f, s, w')) ∨
      ∃ facts s' w', (load p).perform s w = (.ok (), s', w') ∧
        w.disk.Holds ((p.map Path.ofText).getD path) facts ∧
        s'.own = s'.spoken ∧ s'.notebook = { n with facts := facts } ∧
        s'.interpreter = { n with facts := facts } := by
  intro n₀ n s w
  obtain ⟨hs, hw⟩ : s.Shows n ∧ w = (n₀.afterCalls w₀ calls).2 :=
    shows_after (shows_of n₀) w₀ calls
  obtain ⟨facts', hn⟩ : ∃ facts', n = { n₀ with facts := facts' } := afterCalls_eq n₀ w₀ calls
  have hl : n.lexicon = Lexicon.italian := by rw [hn]
  have hpath : n.path = path := by rw [hn]
  have hmode : n.mode = mode := by rw [hn]
  refine ⟨⟨hs.place, hs.notebook, hs.interpreter, hw⟩, ?_, fun p => ?_, fun p => ?_⟩
  · intro x hx hm
    have h := asked_alike hs hl hx hm w
    rwa [hmode] at h
  · rw [perform_save]
  · obtain hf | ⟨facts, s', w', hok, hd, hs'⟩ := load_cases hs p w
    · exact .inl hf
    · rw [hpath] at hd
      exact .inr ⟨facts, s', w', hok, hd, hs'.place, hs'.notebook, hs'.interpreter⟩

end

section

open scoped Host

/-- A load of a file that is not there changes nothing. One of the file that was saved takes back what
was told since. -/
theorem seen_by_both_gatto :
    let calls : List Call := [.process "Il gatto è un felino", .save none,
      .process "Il felino è un animale", .load (some "altro.js")]
    let sw := after (of ⟨Path.ofText "g.js", Lexicon.italian, .guarded, OrderedMap.empty⟩)
      (World.on Disk.empty) calls
    ((process "COSA SAI SU il gatto").perform sw.1 sw.2).1 =
      .ok (Text.of "un felino\nun animale") ∧
    ∃ facts s' w', (load none).perform sw.1 sw.2 = (.ok (), s', w') ∧
      sw.2.disk.Holds (Path.ofText "g.js") facts ∧
      s'.notebook.facts = facts ∧ s'.interpreter.facts = facts := by
  intro calls sw
  obtain ⟨-, hask, -, hload⟩ := seen_by_both (Path.ofText "g.js") .guarded OrderedMap.empty
    (World.on Disk.empty) calls
  constructor
  · have ht : Text.trim "il gatto" = "il gatto" := by decide +kernel
    have hx : Text.Trimmed "il gatto" := ht ▸ Text.trimmed_trim "il gatto"
    have hm : ∀ m, (Text.of "il gatto").getLast? = some m → Text.isMark m = false := by
      intro m hm
      obtain rfl := Option.some.inj hm
      rfl
    have hq : ((query "il gatto").perform sw.1 sw.2).1 =
        .ok [Text.of "un felino", "un animale"] := by decide +kernel
    obtain ⟨found, hf, hp⟩ := (hask "il gatto" hx hm).1 rfl
    obtain rfl := Except.ok.inj (hf.symm.trans hq)
    exact hp
  · obtain ⟨f, w', hf⟩ | ⟨facts, s', w', hok, hd, -, hn, hi⟩ := hload none
    · have hr : ((load none).perform sw.1 sw.2).1 = .ok () := by decide +kernel
      rw [hf] at hr
      cases hr
    · exact ⟨facts, s', w', hok, hd, by rw [hn], by rw [hi]⟩

end

end Session

end Syllogism
