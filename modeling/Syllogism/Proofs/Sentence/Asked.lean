import Syllogism.Proofs.Sentence.Grows
import Syllogism.Proofs.Sentence.Questions

/-! What was told is found again, by a question for the subject and by a question for the object,
whatever was said in between. -/

namespace Syllogism

namespace Conversation

variable {c : Conversation} {facts : Facts} {j k sentence p subject object : Text}

theorem leads_of_statement (h : c.lexicon.reading? sentence = some (.statement subject object))
    (facts : Facts) (before later : List Text) :
    Facts.Leads c.key (c.after facts (before ++ sentence :: later))
      (c.key subject) (c.key object) := by
  have hs : (c.respond (c.after facts before) sentence).facts =
      (c.after facts before).tell c.key subject object := by
    rw [respond_of_reading? h]
    rfl
  have hl : Facts.Leads c.key (c.respond (c.after facts before) sentence).facts
      (c.key subject) (c.key object) := by
    rw [hs, Facts.leads_tell]
    exact .inr ⟨rfl, rfl⟩
  rw [after, List.foldl_append, List.foldl_cons]
  exact (grows_after c _ later).leads hl

/-- What was told of a subject is found by the question for it, at any later time, unless a mark
closes the subject: the question ends with it, and loses the mark. -/
theorem asked_by_subject (manner : Facts.Manner) (before later : List Text)
    (h : Lexicon.italian.reading? sentence = some (.statement subject object)) :
    let c : Conversation := ⟨Lexicon.italian, Lexicon.italian.key, manner⟩
    let facts := c.after OrderedMap.empty (before ++ sentence :: later)
    c.lexicon.reading? (Text.of "COSA SAI SU " ++ subject) =
      some (.question (Text.stripMarks subject)) ∧
    ((∀ m, subject.getLast? = some m → Text.isMark m = false) →
      Text.stripMarks subject = subject ∧
      (∃ found, facts.whatIs? c.key .guarded subject = some found ∧
        ∃ a ∈ found, c.key a = c.key object) ∧
      ∀ room found, facts.whatIs? c.key (.unguarded room) subject = some found →
        ∃ a ∈ found, c.key a = c.key object) := by
  intro c facts
  have hl : Facts.Leads c.key facts (c.key subject) (c.key object) :=
    leads_of_statement h OrderedMap.empty before later
  have hfound : ∀ manner found, facts.whatIs? c.key manner subject = some found →
      ∃ a ∈ found, c.key a = c.key object := fun manner found hf => Facts.exists_mem_whatIs? hf hl
  refine ⟨Lexicon.reading?_ask subject, fun hm => ⟨?_, ?_, fun room => hfound (.unguarded room)⟩⟩
  · obtain ⟨⟨i, hs, -⟩, -⟩ := Lexicon.sides?_eq_some (Lexicon.sides?_of_reading? h)
    exact Text.stripMarks_eq_self (hs ▸ Text.trimmed_trim _) hm
  · exact ⟨_, rfl, hfound .guarded _ rfl⟩

/-- A full stop inside the subject is kept. -/
theorem asked_by_subject_gatto :
    let c : Conversation := ⟨Lexicon.italian, Lexicon.italian.key, .guarded⟩
    let facts := c.after OrderedMap.empty
      ["Un uomo è mortale", "Il sig. gatto È  un uomo ?.", "Ciao."]
    c.lexicon.reading? "COSA SAI SU Il sig. gatto" = some (.question "Il sig. gatto") ∧
    facts.whatIs? c.key .guarded "Il sig. gatto" = some [Text.of "un uomo", "mortale"] ∧
    ∃ a ∈ [Text.of "un uomo", "mortale"], c.key a = c.key "un uomo" := by
  intro c facts
  have h : Lexicon.italian.reading? "Il sig. gatto È  un uomo ?." =
      some (.statement "Il sig. gatto" "un uomo") := by decide +kernel
  obtain ⟨hr, hf⟩ := asked_by_subject .guarded ["Un uomo è mortale"] ["Ciao."] h
  have hm : ∀ m, (Text.of "Il sig. gatto").getLast? = some m → Text.isMark m = false := by
    intro m hm
    obtain rfl := Option.some.inj hm
    rfl
  obtain ⟨hs, ⟨found, hfound, ha⟩, -⟩ := hf hm
  have hw : facts.whatIs? c.key .guarded "Il sig. gatto" = some [Text.of "un uomo", "mortale"] := by
    decide +kernel
  obtain rfl := Option.some.inj (hfound.symm.trans hw)
  rw [hs] at hr
  exact ⟨hr, hw, ha⟩

/-- A subject that a mark closes is not found again, as the question for it loses the mark. -/
theorem closing_mark_lost :
    let c : Conversation := ⟨Lexicon.italian, Lexicon.italian.key, .guarded⟩
    let facts := c.after OrderedMap.empty ["Il sig. è un uomo"]
    c.lexicon.reading? "Il sig. è un uomo" = some (.statement "Il sig." "un uomo") ∧
    facts.entries = [(Text.of "SIG.", [Text.of "un uomo"])] ∧
    ¬ ∃ asked found,
      c.lexicon.reading? (Text.of "COSA SAI SU " ++ Text.of "Il sig.") = some (.question asked) ∧
      facts.whatIs? c.key .guarded asked = some found ∧
      ∃ a ∈ found, c.key a = c.key "un uomo" := by
  intro c facts
  refine ⟨by decide +kernel, by decide +kernel, ?_⟩
  rintro ⟨asked, found, hr, hf, a, ha, -⟩
  have hask : c.lexicon.reading? (Text.of "COSA SAI SU " ++ Text.of "Il sig.") =
      some (.question "Il sig") := by decide +kernel
  have hnone : facts.whatIs? c.key .guarded "Il sig" = some [] := by decide +kernel
  obtain rfl := Reading.question.inj (Option.some.inj (hr.symm.trans hask))
  obtain rfl := Option.some.inj (hf.symm.trans hnone)
  cases ha

/-- What was told is found by the question who has its object, asked with the copula of the
statement, at any later time. -/
theorem asked_by_object (manner : Facts.Manner) (before later : List Text)
    (h : Lexicon.italian.reading? sentence = some (.statement subject object))
    (hp : Lexicon.italian.copula? (Text.stripMarks sentence) = some p) :
    let c : Conversation := ⟨Lexicon.italian, Lexicon.italian.key, manner⟩
    let facts := c.after OrderedMap.empty (before ++ sentence :: later)
    c.lexicon.reading? (Text.of "CHI " ++ p ++ Text.of " " ++ object) =
      some (.whoQuestion "CHI" object) ∧
    (∃ found, facts.whoIs? c.key .guarded object = some found ∧ c.key subject ∈ found) ∧
    ∀ room found, facts.whoIs? c.key (.unguarded room) object = some found → c.key subject ∈ found := by
  intro c facts
  have hl : Facts.Leads c.key facts (c.key subject) (c.key object) :=
    leads_of_statement h OrderedMap.empty before later
  have hfound : ∀ manner found, facts.whoIs? c.key manner object = some found →
      c.key subject ∈ found := fun manner found hf => Facts.mem_whoIs? hf hl
  have hr : c.lexicon.reading? (Lexicon.askWho p object) = some (.whoQuestion "CHI" object) :=
    Lexicon.reading?_askWho h hp
  exact ⟨hr, ⟨_, rfl, hfound .guarded _ rfl⟩, fun room => hfound (.unguarded room)⟩

/-- A copula of lower rank may stand in the object. -/
theorem asked_by_object_roma :
    let c : Conversation := ⟨Lexicon.italian, Lexicon.italian.key, .guarded⟩
    let facts := c.after OrderedMap.empty
      ["Un altro è a Roma", "Roma e' dove sono nato.", "Dove sono nato è bello"]
    Lexicon.italian.copula? "Roma e' dove sono nato" = some "E'" ∧
    c.lexicon.reading? "CHI E' dove sono nato" = some (.whoQuestion "CHI" "dove sono nato") ∧
    ∃ found, facts.whoIs? c.key .guarded "dove sono nato" = some found ∧ Text.of "ROMA" ∈ found := by
  intro c facts
  have h : Lexicon.italian.reading? "Roma e' dove sono nato." =
      some (.statement "Roma" "dove sono nato") := by decide +kernel
  have ht : Text.stripMarks "Roma e' dove sono nato." = "Roma e' dove sono nato" := by decide +kernel
  have hp : Lexicon.italian.copula? (Text.stripMarks "Roma e' dove sono nato.") = some "E'" := by
    decide +kernel
  obtain ⟨hr, hf, -⟩ := asked_by_object .guarded ["Un altro è a Roma"] ["Dove sono nato è bello"] h hp
  have hk : c.key "Roma" = "ROMA" := by decide +kernel
  rw [ht] at hp
  rw [hk] at hf
  exact ⟨hp, hr, hf⟩

end Conversation

end Syllogism
