import Syllogism.Proofs.Facts.SameCase
import Syllogism.Proofs.Sentence.Questions

/-! Conversations whose sentences differ in nothing but case. They are understood in the same way at
every step, and come to facts and answers that differ in nothing but case. -/

namespace Syllogism

open List (Forall₂)

/-- The same way to understand a sentence, with phrases that differ in case at most. A farewell is
the same entry of the lexicon. -/
inductive Reading.SameCase : Reading → Reading → Prop where
  | farewell (command : Text) : SameCase (.farewell command) (.farewell command)
  | question {subject subject' : Text} (hs : subject.SameCase subject') :
    SameCase (.question subject) (.question subject')
  | whoQuestion {who who' object object' : Text} (hw : who.SameCase who')
    (ho : object.SameCase object') : SameCase (.whoQuestion who object) (.whoQuestion who' object')
  | statement {subject subject' object object' : Text} (hs : subject.SameCase subject')
    (ho : object.SameCase object') :
    SameCase (.statement subject object) (.statement subject' object')

theorem rel_or {α : Type} {R : α → α → Prop} {a a' b b' : Option α} (ha : Option.Rel R a a')
    (hb : Option.Rel R b b') : Option.Rel R (a.or b) (a'.or b') := by
  cases ha with
  | none => exact hb
  | some h => exact .some h

namespace Lexicon

variable {s t : Text}

theorem copula?_eq (l : Lexicon) (h : s.SameCase t) : l.copula? s = l.copula? t := by
  simp only [copula?, (h.drop 1).indexFrom?_eq]

/-- The copula is the same one and stands in the same place. -/
theorem sides?_sameCase (l : Lexicon) (h : s.SameCase t) :
    Option.Rel (fun x y => x.1.SameCase y.1 ∧ x.2.SameCase y.2) (l.sides? s) (l.sides? t) := by
  rw [sides?_eq, sides?_eq, l.copula?_eq h]
  cases l.copula? t with
  | none => exact .none
  | some p =>
    rw [Option.bind_some, Option.bind_some, (h.drop 1).indexFrom?_eq]
    cases Text.indexFrom? p 1 (t.drop 1) with
    | none => exact .none
    | some i =>
      have hs := (h.take i).trim
      have ho := (h.drop (i + p.length)).trim
      simp only [Option.bind_some, hs.isEmpty_eq, ho.isEmpty_eq]
      split
      · exact .none
      · exact .some ⟨hs, ho⟩

theorem question?_sameCase (l : Lexicon) (h : s.SameCase t) :
    Option.Rel Reading.SameCase (l.question? s) (l.question? t) := by
  rw [question?, question?, h.opening?_eq]
  cases Text.opening? l.questions t with
  | none => exact .none
  | some command => exact .some (.question (h.drop command.length).trim)

theorem whoQuestion?_sameCase (l : Lexicon) (h : s.SameCase t) :
    Option.Rel Reading.SameCase (l.whoQuestion? s) (l.whoQuestion? t) := by
  have hsides := l.sides?_sameCase h
  rw [whoQuestion?, whoQuestion?]
  generalize l.sides? s = sides, l.sides? t = sides' at hsides
  cases hsides with
  | none => exact .none
  | some hs =>
    obtain ⟨hsubject, hobject⟩ := hs
    simp only [(hsubject.dropArticle l.articles).opening?_eq]
    cases Text.opening? l.whoWords _ with
    | none => exact .none
    | some word => exact .some (.whoQuestion hsubject hobject)

theorem statement?_sameCase (l : Lexicon) (h : s.SameCase t) :
    Option.Rel Reading.SameCase (l.statement? s) (l.statement? t) := by
  have hsides := l.sides?_sameCase h
  rw [statement?, statement?]
  generalize l.sides? s = sides, l.sides? t = sides' at hsides
  cases hsides with
  | none => exact .none
  | some hs => exact .some (.statement hs.1 hs.2)

theorem farewell?_sameCase (l : Lexicon) (h : s.SameCase t) :
    Option.Rel Reading.SameCase (l.farewell? s) (l.farewell? t) := by
  rw [farewell?, farewell?, h.opening?_eq]
  cases Text.opening? l.farewells t with
  | none => exact .none
  | some command => exact .some (.farewell command)

/-- The same rule fits both sentences. -/
theorem reading?_sameCase (l : Lexicon) (h : s.SameCase t) :
    Option.Rel Reading.SameCase (l.reading? s) (l.reading? t) := by
  have hm := h.stripMarks
  exact rel_or (l.farewell?_sameCase hm) (rel_or (l.question?_sameCase hm)
    (rel_or (l.whoQuestion?_sameCase hm) (l.statement?_sameCase hm)))

end Lexicon

namespace Conversation

variable {l : Lexicon} {facts facts' : Facts} {s t : Text}

/-- Responses to two sentences, of which `reading` is how the first is understood: the facts differ
in case at most, and so do the answers to a question for a subject, which are one text where nothing
is found; any other answers are the same. -/
structure Alike (l : Lexicon) (reading : Option Reading) (r r' : Response) : Prop where
  facts : r.facts.SameCase r'.facts
  answer : match reading with
    | some (.question subject) => Option.Rel Text.SameCase r.answer r'.answer ∧
      (r.facts.whatIs l.key subject = [] →
        r.answer = some l.replies.unknown ∧ r'.answer = some l.replies.unknown)
    | _ => r.answer = r'.answer

theorem report_sameCase {found found' : List Text} (h : Forall₂ Text.SameCase found found')
    (nothing : Text) : (report found nothing).SameCase (report found' nothing) := by
  cases h with
  | nil => exact .refl nothing
  | cons ha hrest => exact Text.sameCase_joinLines (.cons ha hrest)

theorem alike_respondTo {reading reading' : Reading} (hf : facts.SameCase facts')
    (h : reading.SameCase reading') :
    Alike l (some reading) ((Conversation.mk l l.key .guarded).respondTo facts reading)
      ((Conversation.mk l l.key .guarded).respondTo facts' reading') := by
  have hkey : ∀ s t : Text, s.SameCase t → l.key s = l.key t := fun _ _ => l.key_congr
  cases h with
  | farewell command => exact ⟨hf, rfl⟩
  | @question subject subject' hs =>
    have hfound := hf.whatIs hkey hs
    refine ⟨hf, .some (report_sameCase hfound _), fun hnone => ?_⟩
    -- what the first question does not find, the second does not find either
    have hnone : facts.whatIs l.key subject = [] := hnone
    rw [hnone] at hfound
    have hnone' := List.forall₂_nil_left_iff.mp hfound
    simp only [respondTo, Facts.whatIs?, hnone, hnone']
    exact ⟨rfl, rfl⟩
  | whoQuestion hw ho =>
    refine ⟨hf, ?_⟩
    simp only [respondTo, Facts.whoIs?, hf.whoIs_eq hkey ho]
  | statement hs ho => exact ⟨hf.tell hkey hs ho, rfl⟩

/-- How a sentence is understood, unless it is blank. -/
def heard? (l : Lexicon) (sentence : Text) : Option Reading :=
  if Text.blank sentence then none else l.reading? sentence

/-- One sentence in each conversation. -/
theorem alike_respond (hf : facts.SameCase facts') (h : s.SameCase t) :
    Alike l (heard? l s) ((Conversation.mk l l.key .guarded).respond facts s)
      ((Conversation.mk l l.key .guarded).respond facts' t) := by
  have hr := l.reading?_sameCase h
  rw [heard?, respond, respond, h.blank_eq]
  split
  · exact ⟨hf, rfl⟩
  · dsimp only
    generalize l.reading? s = reading, l.reading? t = reading' at hr
    cases hr with
    | none => exact ⟨hf, rfl⟩
    | some hr =>
      obtain ⟨hfacts, hanswer⟩ := alike_respondTo (l := l) hf hr
      exact ⟨hfacts, hanswer⟩

/-- Whole conversations. -/
theorem sameCase_after {sentences sentences' : List Text} (hf : facts.SameCase facts')
    (h : Forall₂ Text.SameCase sentences sentences') :
    Facts.SameCase ((Conversation.mk l l.key .guarded).after facts sentences)
      ((Conversation.mk l l.key .guarded).after facts' sentences') := by
  induction h generalizing facts facts' with
  | nil => exact hf
  | cons hs _ ih => exact ih (alike_respond hf hs).facts

/-- Letter case does not matter. After conversations whose sentences differ in case at most, which
start without facts, so do the facts; and to two more such sentences, both or neither of which are
blank, the same rule fits, and the responses are alike. -/
theorem case_ignored (l : Lexicon) {sentences sentences' : List Text}
    (h : Forall₂ Text.SameCase sentences sentences') (hs : s.SameCase t) :
    let c : Conversation := ⟨l, l.key, .guarded⟩
    let facts := c.after OrderedMap.empty sentences
    let facts' := c.after OrderedMap.empty sentences'
    facts.SameCase facts' ∧ Text.blank s = Text.blank t ∧
      Option.Rel Reading.SameCase (l.reading? s) (l.reading? t) ∧
      Alike l (heard? l s) (c.respond facts s) (c.respond facts' t) := by
  intro c facts facts'
  have hfacts : facts.SameCase facts' := sameCase_after Facts.sameCase_empty h
  exact ⟨hfacts, hs.blank_eq, l.reading?_sameCase hs, alike_respond hfacts hs⟩

/-- The question is answered as the attribute was written, each time in its own case. -/
theorem case_ignored_felino :
    let c : Conversation := ⟨Lexicon.italian, Lexicon.italian.key, .guarded⟩
    let facts := c.after OrderedMap.empty ["Il Gatto è un Felino."]
    let facts' := c.after OrderedMap.empty ["IL GATTO È UN FELINO."]
    facts.SameCase facts' ∧
      (c.respond facts "cosa sai su Gatto").answer = some (Text.of "un Felino") ∧
      (c.respond facts' "COSA SAI SU gatto").answer = some (Text.of "UN FELINO") ∧
      Text.SameCase "un Felino" "UN FELINO" := by
  intro c facts facts'
  have h : Forall₂ Text.SameCase [Text.of "Il Gatto è un Felino."] ["IL GATTO È UN FELINO."] := by
    decide +kernel
  have hs : Text.SameCase "cosa sai su Gatto" "COSA SAI SU gatto" := by decide +kernel
  obtain ⟨hfacts, -, -, halike⟩ := case_ignored Lexicon.italian h hs
  have ha : (c.respond facts "cosa sai su Gatto").answer = some (Text.of "un Felino") := by
    decide +kernel
  have ha' : (c.respond facts' "COSA SAI SU gatto").answer = some (Text.of "UN FELINO") := by
    decide +kernel
  have hheard : heard? Lexicon.italian "cosa sai su Gatto" = some (.question "Gatto") := by
    decide +kernel
  have hanswer : Option.Rel Text.SameCase (c.respond facts "cosa sai su Gatto").answer
      (c.respond facts' "COSA SAI SU gatto").answer := by
    have hanswer := halike.answer
    rw [hheard] at hanswer
    exact hanswer.1
  rw [ha, ha'] at hanswer
  cases hanswer with
  | some hanswer => exact ⟨hfacts, ha, ha', hanswer⟩

end Conversation

end Syllogism
