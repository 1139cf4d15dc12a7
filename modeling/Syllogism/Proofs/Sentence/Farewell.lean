import Syllogism.Proofs.Facts.Unguarded
import Syllogism.Proofs.Sentence.Told

/-! Answers that read like the one to a farewell. Only facts that were there from the start can give
one: in what is told no such text can stand. -/

namespace Syllogism

namespace Text

variable {items : List Text} {t : Text}

/-- A text without line feeds is the one line that it is made of. -/
theorem mem_of_joinLines_eq (h : joinLines items = t) (hi : items ≠ [])
    (ht : CodePoint.char '\n' ∉ t) : t ∈ items := by
  cases items with
  | nil => exact absurd rfl hi
  | cons first items =>
    cases items with
    | nil =>
      rw [joinLines, List.intercalate_singleton] at h
      rw [h]
      exact List.mem_cons_self
    | cons second items =>
      rw [joinLines, List.intercalate_cons_cons] at h
      rw [← h] at ht
      exact absurd (by simp) ht

end Text

/-- The answers that do not depend on the facts. -/
def Replies.all (r : Replies) : List Text :=
  [r.empty, r.goodbye, r.unknown, r.notUnderstood, r.dontKnow, r.ok]

namespace Facts

variable {key : Text → Text} {facts : Facts} {k t subject attr : Text}

/-- The text is a subject or an attribute. -/
def Mentions (facts : Facts) (t : Text) : Prop := t ∈ facts.keys ∨ ∃ k, t ∈ facts.attributes k

theorem not_mentions_empty : ¬ Mentions OrderedMap.empty t := by
  rintro (h | ⟨k, h⟩)
  · cases h
  · cases h

theorem mentions_put {attributes : List Text} (h : Mentions (facts.put k attributes) t) :
    facts.Mentions t ∨ t = k ∨ t ∈ attributes := by
  rcases h with h | ⟨j, h⟩
  · rcases mem_keys_put.mp h with h | h
    · exact .inr (.inl h)
    · exact .inl (.inl h)
  · rw [attributes_put] at h
    split at h
    · exact .inr (.inr h)
    · exact .inl (.inr ⟨j, h⟩)

theorem mentions_tell (h : (facts.tell key subject attr).Mentions t) :
    facts.Mentions t ∨ t = key subject ∨ t = attr := by
  obtain ⟨-, -, ht⟩ | ⟨-, -, ht⟩ := tell_cases key facts subject attr
  · rw [ht] at h
    rcases mentions_put h with h | h | h
    · exact .inl h
    · exact .inr (.inl h)
    · rcases List.mem_append.mp h with h | h
      · exact .inl (.inr ⟨_, h⟩)
      · exact .inr (.inr (List.mem_singleton.mp h))
  · rw [ht] at h
    exact .inl h

/-- No answer that does not depend on the facts is in capitals. -/
theorem plainKey_reply_ne (h : t ∈ Lexicon.italianReplies.all) : plainKey t ≠ t := by
  have hall : ∀ t ∈ Lexicon.italianReplies.all, plainKey t ≠ t := by decide +kernel
  exact hall t h

/-- A mark closes each answer that does not depend on the facts. -/
theorem not_isPhrase_reply (h : t ∈ Lexicon.italianReplies.all) : ¬ t.IsPhrase := by
  have hall : ∀ t ∈ Lexicon.italianReplies.all,
      t.getLast? = some (.char '.') ∨ t.getLast? = some (.char '?') := by decide
  intro hp
  rcases hall t h with hl | hl
  · exact absurd (hp.not_mark _ hl) (by decide)
  · exact absurd (hp.not_mark _ hl) (by decide)

theorem Tidy.not_mentions_reply (h : Tidy key facts) (ht : t ∈ Lexicon.italianReplies.all) :
    ¬ facts.Mentions t := by
  rintro (hk | ⟨k, ha⟩)
  · exact plainKey_reply_ne ht (h.subject _ hk).2
  · exact not_isPhrase_reply ht (h.phrase k (mem_keys_of_mem_attributes ha) _ ha)

theorem goodbye_mem_all : Lexicon.italianReplies.goodbye ∈ Lexicon.italianReplies.all := by
  decide

end Facts

/-! Conversations -/

/-- Why a conversation is over: nothing more is said, a farewell was said, or an answer reads like
the one to a farewell. -/
inductive Ending where
  | silence
  | farewell
  | mistaken
  deriving DecidableEq, Repr

namespace Conversation

/-- The facts after the last sentence that is answered, and why no other one is. -/
def course (c : Conversation) (facts : Facts) : (sentences : List Text) → Facts × Ending
  | [] => (facts, .silence)
  | sentence :: rest =>
    if (c.respond facts sentence).answer = some c.lexicon.replies.goodbye then
      ((c.respond facts sentence).facts,
        if (c.respond facts sentence).farewell then .farewell else .mistaken)
    else c.course (c.respond facts sentence).facts rest

theorem course_cons_of_goodbye {c : Conversation} {facts : Facts} {sentence : Text}
    (rest : List Text)
    (h : (c.respond facts sentence).answer = some c.lexicon.replies.goodbye) :
    c.course facts (sentence :: rest) = ((c.respond facts sentence).facts,
      if (c.respond facts sentence).farewell then .farewell else .mistaken) := if_pos h

theorem course_cons_of_ne {c : Conversation} {facts : Facts} {sentence : Text} (rest : List Text)
    (h : (c.respond facts sentence).answer ≠ some c.lexicon.replies.goodbye) :
    c.course facts (sentence :: rest) = c.course (c.respond facts sentence).facts rest := if_neg h

/-- Conversations in Italian, where a question has an answer also if links lead round a cycle. -/
def italian : Conversation := ⟨Lexicon.italian, Lexicon.italian.key, .guarded⟩

variable {facts : Facts} {sentence subject object t : Text} {sentences : List Text}

theorem mem_of_report_eq {found : List Text} {nothing : Text}
    (h : report found nothing = t) (hn : nothing ≠ t) (ht : CodePoint.char '\n' ∉ t) :
    t ∈ found := by
  unfold report at h
  split at h
  · exact absurd h hn
  · rename_i hf
    have hi : found ≠ [] := fun hi => hf (hi ▸ rfl)
    exact Text.mem_of_joinLines_eq h hi ht

/-- A farewell changes no facts, and its answer is the one that ends a conversation. -/
theorem respond_farewell {c : Conversation} (h : (c.respond facts sentence).farewell = true) :
    (c.respond facts sentence).facts = facts ∧
      (c.respond facts sentence).answer = some c.lexicon.replies.goodbye := by
  rcases respond_cases c facts sentence with ⟨-, hf, -⟩ | ⟨reading, -, hfacts, hf, ha⟩
  · rw [h] at hf
    cases hf
  · rw [hfacts, ha]
    rw [h] at hf
    cases reading with
    | farewell command => exact ⟨rfl, rfl⟩
    | question subject => cases hf
    | whoQuestion who object => cases hf
    | statement subject object => cases hf

theorem respond_farewell_iff {c : Conversation} :
    (c.respond facts sentence).farewell = true ↔
      Text.blank sentence = false ∧
        ∃ command, c.lexicon.reading? sentence = some (.farewell command) := by
  unfold respond
  split
  · rename_i hb
    simp [hb]
  · rename_i hb
    cases hr : c.lexicon.reading? sentence with
    | none => simp
    | some reading => cases reading <;> simp [respondTo, Bool.eq_false_iff.mpr hb]

/-- Unless it answers a farewell, an answer reads like that only if it is taken from the facts. -/
theorem mentions_of_goodbye {c : Conversation} (hc : c.lexicon = Lexicon.italian)
    (h : (c.respond facts sentence).answer = some Lexicon.italianReplies.goodbye)
    (hf : (c.respond facts sentence).farewell = false) :
    facts.Mentions Lexicon.italianReplies.goodbye := by
  have hline : CodePoint.char '\n' ∉ Lexicon.italianReplies.goodbye := by decide
  rcases respond_cases c facts sentence with ⟨-, -, ha | ha⟩ | ⟨reading, -, -, hr, ha⟩
  · rw [h, hc] at ha
    exact absurd ha (by decide)
  · rw [h, hc] at ha
    exact absurd ha (by decide)
  · rw [h] at ha
    rw [hf] at hr
    cases reading with
    | farewell command => cases hr
    | question subject =>
      obtain ⟨found, hfound, hg⟩ := Option.map_eq_some_iff.mp ha.symm
      rw [hc] at hg
      have hm := mem_of_report_eq hg (by decide) hline
      exact .inr (Facts.exists_mem_attributes_of_whatIs? hfound hm)
    | whoQuestion who object =>
      obtain ⟨found, hfound, hg⟩ := Option.map_eq_some_iff.mp ha.symm
      rw [hc] at hg
      have hm := mem_of_report_eq hg (by decide) hline
      exact .inl (Facts.mem_keys_of_whoIs? hfound hm)
    | statement subject object =>
      have ho : some Lexicon.italianReplies.goodbye = some c.lexicon.replies.ok := ha
      rw [hc] at ho
      exact absurd ho (by decide)

/-- Where facts were only told, the goodbye answers nothing but a farewell. -/
theorem goodbye_iff_farewell {c : Conversation} (hc : c.lexicon = Lexicon.italian)
    (h : Facts.Tidy c.key facts) :
    (c.respond facts sentence).answer = some c.lexicon.replies.goodbye ↔
      (c.respond facts sentence).farewell = true := by
  constructor
  · intro ha
    by_contra hf
    rw [hc] at ha
    exact h.not_mentions_reply Facts.goodbye_mem_all (mentions_of_goodbye hc ha (Bool.eq_false_iff.mpr hf))
  · intro hf
    exact (respond_farewell hf).2

/-- What is told does not read like the answer to a farewell: a key is in capitals, and no mark
closes what is told of a subject. -/
theorem mentions_of_respond
    (h : (italian.respond facts sentence).facts.Mentions Lexicon.italianReplies.goodbye) :
    facts.Mentions Lexicon.italianReplies.goodbye := by
  rcases facts_respond_cases italian facts sentence with
    ⟨subject, object, hr, hf⟩ | ⟨-, hf⟩ <;> rw [hf] at h
  · rcases Facts.mentions_tell h with h | hk | ho
    · exact h
    · refine absurd ?_ (Facts.plainKey_reply_ne Facts.goodbye_mem_all)
      rw [hk]
      exact Lexicon.plainKey_key _ subject
    · refine absurd ?_ (Facts.not_isPhrase_reply Facts.goodbye_mem_all)
      rw [ho]
      exact Lexicon.isPhrase_of_statement hr
  · exact h

/-- A mistaken ending needs facts that mention the answer to a farewell before the conversation. -/
theorem mentions_of_course (h : (italian.course facts sentences).2 = .mistaken) :
    facts.Mentions Lexicon.italianReplies.goodbye := by
  induction sentences generalizing facts with
  | nil => cases h
  | cons sentence sentences ih =>
    unfold course at h
    split at h
    · rename_i ha
      split at h
      · cases h
      · rename_i hf
        exact mentions_of_goodbye rfl ha (Bool.eq_false_iff.mpr hf)
    · exact mentions_of_respond (ih h)

end Conversation

end Syllogism
