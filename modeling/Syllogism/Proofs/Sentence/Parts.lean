import Syllogism.Proofs.Sentence.Farewell
import Syllogism.Proofs.Text.Whole

/-! What facts mention is a part of a sentence that told them, as it stands there or in capitals. -/

namespace Syllogism

namespace Lexicon

variable {l : Lexicon} {sentence subject object : Text}

theorem infix_of_statement (h : l.reading? sentence = some (.statement subject object)) :
    subject <:+: sentence ∧ object <:+: sentence := by
  obtain ⟨⟨i, hs, -⟩, j, ho, -⟩ := sides?_eq_some (sides?_of_reading? h)
  have ht := Text.infix_stripMarks sentence
  have htake : (Text.stripMarks sentence).take i <:+: sentence :=
    (List.take_prefix i _).isInfix.trans ht
  have hdrop : (Text.stripMarks sentence).drop j <:+: sentence :=
    (List.drop_suffix j _).isInfix.trans ht
  rw [hs, ho]
  exact ⟨(Text.infix_trim _).trans htake, (Text.infix_trim _).trans hdrop⟩

/-- A key is in capitals what stands in the phrase. -/
theorem exists_infix_key (l : Lexicon) (phrase : Text) :
    ∃ part, part <:+: phrase ∧ l.key phrase = Text.upper part :=
  ⟨_, (Text.infix_trim _).trans (Text.infix_dropArticle l.articles phrase), rfl⟩

end Lexicon

namespace Conversation

variable {c : Conversation} {facts : Facts} {sentence t : Text}

/-- The text stands in the sentence, or its capitals come from what stands there. -/
def PartOf (sentence t : Text) : Prop := ∃ part, part <:+: sentence ∧ (t = part ∨ t = Text.upper part)

theorem mentions_respond (hc : c.key = c.lexicon.key)
    (h : (c.respond facts sentence).facts.Mentions t) : facts.Mentions t ∨ PartOf sentence t := by
  obtain ⟨subject, object, hr, hf⟩ | ⟨-, hf⟩ := facts_respond_cases c facts sentence <;>
    rw [hf] at h
  · obtain ⟨hsubject, hobject⟩ := Lexicon.infix_of_statement hr
    rcases Facts.mentions_tell h with h | rfl | rfl
    · exact .inl h
    · obtain ⟨part, hp, hk⟩ := c.lexicon.exists_infix_key subject
      exact .inr ⟨part, hp.trans hsubject, .inr (hc ▸ hk)⟩
    · exact .inr ⟨_, hobject, .inl rfl⟩
  · exact .inl h

theorem mentions_after (hc : c.key = c.lexicon.key) {sentences : List Text}
    (h : (c.after facts sentences).Mentions t) :
    facts.Mentions t ∨ ∃ sentence ∈ sentences, PartOf sentence t := by
  induction sentences generalizing facts with
  | nil => exact .inl h
  | cons sentence sentences ih =>
    rcases ih h with h | ⟨s, hs, ht⟩
    · rcases mentions_respond hc h with h | ht
      · exact .inl h
      · exact .inr ⟨sentence, List.mem_cons_self, ht⟩
    · exact .inr ⟨s, List.mem_cons_of_mem _ hs, ht⟩

end Conversation

end Syllogism
