import Syllogism.Proofs.Lexicon.Padded
import Syllogism.Proofs.Serving.Lookup
import Syllogism.Proofs.Shell.Lines

/-! A lookup depends on the key of its phrase only. White space around an Italian phrase matters to
it where it hides an article, and nowhere else. -/

namespace Syllogism

open Act Relation

namespace Facts

variable {key : Text → Text} {x y : Text}

theorem whatIsWithin_congr (h : key x = key y) (facts : Facts) (depth : Nat) :
    facts.whatIsWithin key depth x = facts.whatIsWithin key depth y := by
  cases depth with
  | zero => rfl
  | succ depth => rw [whatIsWithin, whatIsWithin, h]

theorem whoIsWithin_congr (h : key x = key y) (facts : Facts) (depth : Nat) :
    facts.whoIsWithin key depth x = facts.whoIsWithin key depth y := by
  cases depth with
  | zero => rfl
  | succ depth => rw [whoIsWithin, whoIsWithin, h]

theorem whatIs?_congr (h : key x = key y) (manner : Manner) (facts : Facts) :
    facts.whatIs? key manner x = facts.whatIs? key manner y := by
  cases manner with
  | guarded => rw [whatIs?, whatIs?, whatIs, whatIs, h]
  | unguarded room => exact whatIsWithin_congr h facts room.whatIs

theorem whoIs?_congr (h : key x = key y) (manner : Manner) (facts : Facts) :
    facts.whoIs? key manner x = facts.whoIs? key manner y := by
  cases manner with
  | guarded => rw [whoIs?, whoIs?, whoIs, whoIs, h]
  | unguarded room => exact whoIsWithin_congr h facts room.whoIs

/-- A single fact. -/
def one (j a : Text) : Facts := ⟨[(j, [a])], by simp⟩

theorem leads_one {i j k a : Text} : Leads key (one j a) i k ↔ i = j ∧ k = key a := by
  simp [Leads, mem_attributes_iff, one, eq_comm]

end Facts

namespace Lookup

variable {k : Lookup} {l : Lexicon} {n : Notebook} {x y t u v : Text} {json : Bool} {d : Disk}
  {setting : Shell.Setting} {arguments arguments' : List Text} {w : World}

/-! Phrases with one key -/

/-- Phrases with different keys are told apart, by a single fact about one of them. -/
theorem key_eq_of_found
    (h : ∀ path facts,
      k.found ⟨path, l, .guarded, facts⟩ x = k.found ⟨path, l, .guarded, facts⟩ y) :
    l.key x = l.key y := by
  have h := h (Path.ofText [])
  cases k with
  | whatIs =>
    have hx : l.key [] ∈ ((Facts.one (l.key x) []).whatIs l.key x).map l.key :=
      Facts.mem_map_whatIs.mpr (.single (Facts.leads_one.mpr ⟨rfl, rfl⟩))
    have hfound : (Facts.one (l.key x) []).whatIs l.key x = Facts.whatIs l.key _ y := h _
    rw [hfound] at hx
    obtain ⟨_, hy, -⟩ := TransGen.head'_iff.mp (Facts.mem_map_whatIs.mp hx)
    exact (Facts.leads_one.mp hy).1.symm
  | whoIs =>
    have hx : [] ∈ (Facts.one [] x).whoIs l.key x :=
      Facts.mem_whoIs.mpr (.single (Facts.leads_one.mpr ⟨rfl, rfl⟩))
    have hfound : (Facts.one [] x).whoIs l.key x = Facts.whoIs l.key _ y := h _
    rw [hfound] at hx
    obtain ⟨_, -, hy⟩ := TransGen.tail'_iff.mp (Facts.mem_whoIs.mp hx)
    exact (Facts.leads_one.mp hy).2.symm

/-- White space has no halves. -/
theorem half_mem_padded (hu : Text.blank u = true) (hv : Text.blank v = true) (half : Fin 0x800) :
    .half half ∈ u ++ t ++ v ↔ .half half ∈ t := by
  have hblank : ∀ {s : Text}, Text.blank s = true → .half half ∉ s := by
    intro s hs hm
    have hb : Text.isBlank (.half half) = true := List.all_eq_true.mp hs _ hm
    have hcode : 0xD800 ≤ (CodePoint.half half).code := Nat.le_add_right _ _
    simp only [Text.isBlank, Bool.or_eq_true, Bool.and_eq_true, decide_eq_true_eq, beq_iff_eq] at hb
    omega
  simp [hblank hu, hblank hv]

section

variable [Host]

theorem act_congr (h : n.lexicon.key x = n.lexicon.key y) : k.act n x = k.act n y := by
  cases k with
  | whatIs => rw [act, act, Notebook.whatIs, Notebook.whatIs, Facts.whatIs?_congr h]
  | whoIs => rw [act, act, Notebook.whoIs, Notebook.whoIs, Facts.whoIs?_congr h]

theorem perform_ask_congr {s : Session} (h : s.lexicon.key x = s.lexicon.key y) (w : World) :
    (k.ask x).perform s w = (k.ask y).perform s w := by
  rw [perform_ask_eq, perform_ask_eq, act_congr (n := s.notebook) h]

/-- Sessions tell two phrases apart exactly if their keys differ. -/
theorem ask_eq_iff : (∀ (s : Session) (w : World), s.lexicon = l →
    (k.ask x).perform s w = (k.ask y).perform s w) ↔ l.key x = l.key y := by
  constructor
  · refine fun h => key_eq_of_found (k := k) fun path facts => ?_
    have hs := h (.of ⟨path, l, .guarded, facts⟩) (World.on Disk.empty) rfl
    rw [perform_ask rfl, perform_ask rfl] at hs
    exact Except.ok.inj (Prod.mk.inj hs).1
  · rintro h s w rfl
    exact perform_ask_congr h w

/-! Commands -/

/-- What a command prints of what was found. -/
def printed (k : Lookup) (json : Bool) (found : List Text) (phrase : Text) : Text :=
  if json then Text.line (Shell.resultsJson k.name phrase found).text
  else found.flatMap Text.line

/-- Two texts of a report for two phrases: both of the same that was found, or nothing. -/
def SamePrinted (k : Lookup) (json : Bool) (x y s t : Text) : Prop :=
  s = [] ∧ t = [] ∨ ∃ found, s = k.printed json found x ∧ t = k.printed json found y

/-- Two ends that are one, or two failures over a half, which may stand at different places. -/
def SameEnd (e e' : Except Failure Nat) : Prop :=
  e' = e ∨ ∃ gap gap', e = .error (.halves gap) ∧ e' = .error (.halves gap')

/-- A report in lines takes no notice of the phrase. -/
theorem exists_perform_report_lines (k : Lookup) (nothing : Text) (found : List Text)
    (hw : w.out = []) :
    ∃ (e : Except Failure Nat) (w' : World) (given : List Text), ∀ phrase,
      (Shell.report k.name phrase nothing false found).perform w =
        (e, { w' with out := given.flatMap Text.line }) := by
  cases found with
  | nil =>
    refine ⟨.ok 1, { w with notices := w.notices ++ [.message (Text.line nothing)] }, [], ?_⟩
    intro phrase
    rw [List.flatMap_nil, ← hw]
    rfl
  | cons t rest =>
    obtain ⟨e, given, h⟩ := Shell.exists_perform_printLines (t :: rest) w
    refine ⟨e.map fun _ => 0, w, given, ?_⟩
    intro phrase
    have hprint : Shell.report k.name phrase nothing false (t :: rest) =
        (Shell.printLines (t :: rest) >>= fun _ => pure 0) := rfl
    rw [hprint, perform_bind, h, hw]
    cases e <;> rfl

/-- A report takes notice of the phrase only in what it prints. For phrases with the same halves it
prints both texts or none of them. -/
theorem perform_report_congr (hh : ∀ half, .half half ∈ x ↔ .half half ∈ y) (k : Lookup)
    (nothing : Text) (json : Bool) (found : List Text) (hw : w.out = []) :
    ∃ (e e' : Except Failure Nat) (w' : World) (s t : Text),
      (Shell.report k.name x nothing json found).perform w = (e, { w' with out := s }) ∧
      (Shell.report k.name y nothing json found).perform w = (e', { w' with out := t }) ∧
      SameEnd e e' ∧ SamePrinted k json x y s t := by
  cases json with
  | true =>
    have hiff : Printable x found ↔ Printable y found := by simp only [Printable, hh]
    by_cases hx : Printable x found
    · rw [perform_report_json k nothing hx, perform_report_json k nothing (hiff.mp hx), hw]
      exact ⟨_, _, w, _, _, rfl, rfl, .inl rfl, .inr ⟨found, rfl, rfl⟩⟩
    · obtain ⟨gap, h⟩ := exists_perform_report_json k nothing hx w
      obtain ⟨gap', h'⟩ := exists_perform_report_json k nothing (mt hiff.mpr hx) w
      have hout : { w with out := [] } = w := by rw [← hw]
      refine ⟨_, _, w, [], [], ?_, ?_, .inr ⟨gap, gap', rfl, rfl⟩, .inl ⟨rfl, rfl⟩⟩
      · rw [h, hout]
      · rw [h', hout]
  | false =>
    obtain ⟨e, w', given, h⟩ := exists_perform_report_lines k nothing found hw
    exact ⟨e, e, w', _, _, h x, h y, .inl rfl, .inr ⟨given, rfl, rfl⟩⟩

theorem perform_act_cases (k : Lookup) (n : Notebook) (phrase : Text) (w : World) :
    (∃ f, (k.act n phrase).perform w = (.error f, w)) ∨
      ∃ found, (k.act n phrase).perform w = (.ok found, w) := by
  cases k with
  | whatIs =>
    rw [act, Notebook.whatIs]
    split
    · exact .inl ⟨_, rfl⟩
    · exact .inr ⟨_, rfl⟩
  | whoIs =>
    rw [act, Notebook.whoIs]
    split
    · exact .inl ⟨_, rfl⟩
    · exact .inr ⟨_, rfl⟩

/-- The phrases have one key in the notebook that a command opens. -/
def SameKey (d : Disk) (setting : Shell.Setting) (x y : Text) : Prop :=
  ∀ n, Shell.notebookIn d setting = .ok n → n.lexicon.key x = n.lexicon.key y

/-- For all phrases with the key of `y` a command does the same: it prints nothing, or it reports
what it has found. -/
theorem perform_commands (k : Lookup) (json : Bool) (d : Disk) (setting : Shell.Setting)
    (y : Text) :
    ∃ w : World, w.out = [] ∧
      ((∃ e : Except Failure Nat, ∀ x i, SameKey d setting x y →
        ((k.command json x).run setting i).perform (World.on d) = (e, w)) ∨
      ∃ nothing found, ∀ x i, SameKey d setting x y →
        ((k.command json x).run setting i).perform (World.on d) =
          (Shell.report k.name x nothing json found).perform w) := by
  obtain ⟨f, -, ho⟩ | ⟨n, w, hn, ho⟩ := Shell.perform_openNotebook setting (World.on d)
  · refine ⟨World.on d, rfl, .inl ⟨.error f, fun x i _ => ?_⟩⟩
    rw [run_command, perform_bind, ho]
  · refine ⟨w, (Shell.perform_openNotebook_kept ho).2, ?_⟩
    have hact : ∀ x, SameKey d setting x y → k.act n x = k.act n y := fun x hx =>
      act_congr (hx n hn)
    obtain ⟨f, ha⟩ | ⟨found, ha⟩ := perform_act_cases k n y w
    · refine .inl ⟨.error f, fun x i hx => ?_⟩
      rw [run_command, perform_bind_of_ok ho, hact x hx, perform_bind, ha]
    · refine .inr ⟨k.nothing n, found, fun x i hx => ?_⟩
      rw [run_command, perform_bind_of_ok ho, hact x hx, perform_bind_of_ok ha]

/-- Two runs for two phrases that come to the same: both print what was found, or nothing, and they
differ in nothing else, but for the place of a half that keeps the text of one from being
printed. -/
structure SameRun (k : Lookup) (json : Bool) (x y : Text) (r r' : Shell.Run) : Prop where
  status : SameEnd r.status r'.status
  messages : r'.messages = r.messages
  disk : r'.disk = r.disk
  out : SamePrinted k json x y r.out r'.out

theorem run_congr (input input' : Shell.Input) (h : SameKey d setting x y)
    (hh : ∀ half, .half half ∈ x ↔ .half half ∈ y)
    (hx : Shell.requestOf arguments = .ok (.command setting (k.command json x)))
    (hy : Shell.requestOf arguments' = .ok (.command setting (k.command json y))) :
    SameRun k json x y (Shell.run d arguments input) (Shell.run d arguments' input') := by
  obtain ⟨w, hw, ⟨e, hc⟩ | ⟨nothing, found, hc⟩⟩ := perform_commands k json d setting y
  · obtain ⟨hsame, hout, hout'⟩ := Shell.run_same_of_perform input input' hx hy
      (hc x _ h) (hc y _ fun _ _ => rfl)
    exact ⟨.inl hsame.status, hsame.messages, hsame.disk, .inl ⟨hout.trans hw, hout'.trans hw⟩⟩
  · obtain ⟨e, e', w', s, t, hs, ht, he, hprinted⟩ :=
      perform_report_congr hh k nothing json found hw
    have hcx := (hc x input h).trans hs
    have hcy := (hc y input' fun _ _ => rfl).trans ht
    obtain rfl | ⟨gap, gap', rfl, rfl⟩ := he
    · obtain ⟨hsame, hout, hout'⟩ := Shell.run_same_of_perform input input' hx hy hcx hcy
      refine ⟨.inl hsame.status, hsame.messages, hsame.disk, ?_⟩
      rw [hout, hout']
      exact hprinted
    · rw [Shell.run_of_halves hx hcx, Shell.run_of_halves hy hcy]
      exact ⟨.inr ⟨gap, gap', rfl, rfl⟩, rfl, rfl, hprinted⟩

/-! Tools -/

/-- Two answers of a tool for two phrases that come to the same: one failure, or one key and what
was found for it, under each of the phrases. -/
def SameReply (k : Lookup) (x y : Text) (r r' : Except Failure Text) : Prop :=
  (∃ f, r = .error f ∧ r' = .error f) ∨
    ∃ key found, r = .ok (k.content key found x).text ∧ r' = .ok (k.content key found y).text

/-- The lexicon of the notebook that calls work on, which may still have to be opened. -/
def lexiconOf (notebook : Option Notebook) : Lexicon :=
  (notebook.map Notebook.lexicon).getD Lexicon.italian

theorem lexicon_of_perform_notebookOf {notebook : Option Notebook} {w w' : World}
    (h : (Serving.notebookOf notebook).perform w = (.ok n, w')) :
    n.lexicon = lexiconOf notebook := by
  cases notebook with
  | some n' =>
    obtain ⟨rfl, -⟩ := of_perform_pure h
    rfl
  | none =>
    obtain ⟨facts, rfl, -⟩ := Notebook.of_perform_openAt h
    rfl

theorem answer_congr {notebook : Option Notebook}
    (h : (lexiconOf notebook).key x = (lexiconOf notebook).key y) (w : World) :
    let a := Serving.answer notebook (k.tool x) w
    let a' := Serving.answer notebook (k.tool y) w
    SameReply k x y a.1.1 a'.1.1 ∧ a'.1.2 = a.1.2 ∧ a'.2 = a.2 := by
  dsimp only
  rw [Serving.answer, Serving.answer]
  rcases ho : (Serving.notebookOf notebook).perform w with ⟨f | n, w₁⟩
  · exact ⟨.inl ⟨f, rfl, rfl⟩, rfl, rfl⟩
  · rw [← lexicon_of_perform_notebookOf ho] at h
    dsimp only
    rw [call_tool, call_tool, act_congr h, perform_bind, perform_bind, h]
    obtain ⟨f, ha⟩ | ⟨found, ha⟩ := perform_act_cases k n y w₁
    · rw [ha]
      exact ⟨.inl ⟨f, rfl, rfl⟩, rfl, rfl⟩
    · rw [ha]
      exact ⟨.inr ⟨_, found, rfl, rfl⟩, rfl, rfl⟩

/-! White space -/

/-- Without the name of a lexicon, a notebook has the Italian one. -/
theorem lexicon_of_notebookIn (hl : setting.lexicon.getD [] = [])
    (hn : Shell.notebookIn d setting = .ok n) : n.lexicon = Lexicon.italian := by
  have hi : Shell.lexiconIn d setting.lexicon = .ok Lexicon.italian := by
    cases hs : setting.lexicon with
    | none => rfl
    | some file =>
      rw [hs] at hl
      obtain rfl : file = [] := hl
      rfl
  unfold Shell.notebookIn at hn
  rw [hi] at hn
  split at hn
  · cases hn
  · cases hn
  · rename_i hlexicon hpath
    obtain rfl := Except.ok.inj hlexicon
    obtain ⟨facts, -, rfl⟩ := map_eq_ok.mp hn
    rfl

theorem sameKey_of_italian (hl : setting.lexicon.getD [] = [])
    (h : Lexicon.italian.key x = Lexicon.italian.key y) : SameKey d setting x y := by
  intro n hn
  rw [lexicon_of_notebookIn hl hn]
  exact h

/-- White space behind an Italian phrase is nothing to its key. In front of it, it hides an article:
the key is that of the phrase as it stands. So a session tells the phrase with white space around it
from the phrase itself exactly if there is some in front and an article would be taken off. If not,
the commands and the tools find the same for both as well. -/
theorem padded_exact (hu : Text.blank u = true) (hv : Text.blank v = true) (t : Text)
    (k : Lookup) :
    (Lexicon.italian.key (u ++ t ++ v) =
      if u = [] then Lexicon.italian.key t else plainKey t) ∧
    (Lexicon.italian.key (u ++ t ++ v) = Lexicon.italian.key t ↔
      u = [] ∨ Text.dropArticle Lexicon.italian.articles t = Text.trim t) ∧
    ((∀ (s : Session) (w : World), s.lexicon = Lexicon.italian →
        (k.ask (u ++ t ++ v)).perform s w = (k.ask t).perform s w) ↔
      u = [] ∨ Text.dropArticle Lexicon.italian.articles t = Text.trim t) ∧
    (u = [] ∨ Text.dropArticle Lexicon.italian.articles t = Text.trim t →
      (∀ (d : Disk) (setting : Shell.Setting) (json : Bool) (arguments arguments' : List Text)
          (input input' : Shell.Input), setting.lexicon.getD [] = [] →
        Shell.requestOf arguments = .ok (.command setting (k.command json (u ++ t ++ v))) →
        Shell.requestOf arguments' = .ok (.command setting (k.command json t)) →
        SameRun k json (u ++ t ++ v) t (Shell.run d arguments input)
          (Shell.run d arguments' input')) ∧
      ∀ (notebook : Option Notebook) (w : World), lexiconOf notebook = Lexicon.italian →
        let a := Serving.answer notebook (k.tool (u ++ t ++ v)) w
        let a' := Serving.answer notebook (k.tool t) w
        SameReply k (u ++ t ++ v) t a.1.1 a'.1.1 ∧ a'.1.2 = a.1.2 ∧ a'.2 = a.2) := by
  have hkey := Lexicon.key_padded_iff hu hv t
  refine ⟨Lexicon.key_padded hu hv t, hkey, ask_eq_iff.trans hkey, fun h => ?_⟩
  have hsame := hkey.mpr h
  constructor
  · intro d setting json arguments arguments' input input' hl hx hy
    exact run_congr input input' (sameKey_of_italian hl hsame) (half_mem_padded hu hv) hx hy
  · intro notebook w hn
    exact answer_congr (by rw [hn, hsame]) w

end

/-- A notebook about cats. -/
def gattoNotebook : Notebook :=
  ⟨Path.ofText "Sillogismi.js", Lexicon.italian, .guarded, Facts.one "GATTO" "un felino"⟩

section

open scoped Host

theorem padded_exact_gatto :
    Lexicon.italian.key " gatto\n" = "GATTO" ∧
      ∀ w, (whatIs.ask " gatto\n").perform (.of gattoNotebook) w =
        (.ok ["un felino"], .of gattoNotebook, w) := by
  have hpadded : Text.of " gatto\n" = Text.of " " ++ Text.of "gatto" ++ Text.of "\n" := rfl
  obtain ⟨hkey, hiff, hask, -⟩ := padded_exact (u := Text.of " ") (v := Text.of "\n") (by decide)
    (by decide) (Text.of "gatto") whatIs
  rw [hpadded]
  constructor
  · rw [hkey]
    decide +kernel
  · intro w
    have hfound : whatIs.found gattoNotebook "gatto" = [Text.of "un felino"] := by decide +kernel
    rw [hask.mpr (.inr (by decide +kernel)) _ w rfl, perform_ask rfl, hfound]

/-- A space in front of a phrase leads to another node. -/
theorem article_hidden :
    (¬ ∀ t u v : Text, Text.blank u = true → Text.blank v = true →
      Lexicon.italian.key (u ++ t ++ v) = Lexicon.italian.key t) ∧
    Lexicon.italian.key " il gatto" = "IL GATTO" ∧ Lexicon.italian.key "il gatto" = "GATTO" ∧
    whatIs.found gattoNotebook " il gatto" = [] ∧
    whatIs.found gattoNotebook "il gatto" = [Text.of "un felino"] := by
  have hhidden : Lexicon.italian.key " il gatto" = "IL GATTO" := by decide +kernel
  have hkey : Lexicon.italian.key "il gatto" = "GATTO" := by decide +kernel
  refine ⟨fun h => ?_, hhidden, hkey, by decide +kernel, by decide +kernel⟩
  have hsame : Lexicon.italian.key " il gatto" = Lexicon.italian.key "il gatto" :=
    h "il gatto" " " "" (by decide) (by decide)
  rw [hhidden, hkey] at hsame
  exact absurd hsame (by decide)

end

end Lookup

end Syllogism
