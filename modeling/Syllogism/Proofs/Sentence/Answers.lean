import Syllogism.Proofs.Sentence.Farewell

/-! The answers of a conversation, and how one that does not come to an end goes on with more
sentences. -/

namespace Syllogism.Conversation

variable {c : Conversation} {facts : Facts} {sentence a : Text} {sentences : List Text}

/-- The answers to sentences, up to the goodbye or up to a question that goes too deep. -/
def answers (c : Conversation) (facts : Facts) : (sentences : List Text) → List Text
  | [] => []
  | sentence :: rest =>
    match (c.respond facts sentence).answer with
    | none => []
    | some a =>
      if a = c.lexicon.replies.goodbye then [a]
      else a :: c.answers (c.respond facts sentence).facts rest

theorem answers_cons_of_goodbye (rest : List Text) (ha : (c.respond facts sentence).answer = some a)
    (hg : a = c.lexicon.replies.goodbye) : c.answers facts (sentence :: rest) = [a] := by
  simp only [answers, ha, if_pos hg]

theorem answers_cons_of_ne (rest : List Text) (ha : (c.respond facts sentence).answer = some a)
    (hg : a ≠ c.lexicon.replies.goodbye) :
    c.answers facts (sentence :: rest) = a :: c.answers (c.respond facts sentence).facts rest := by
  simp only [answers, ha, if_neg hg]

theorem mem_answers_cons (rest : List Text) (ha : (c.respond facts sentence).answer = some a) :
    a ∈ c.answers facts (sentence :: rest) := by
  by_cases hg : a = c.lexicon.replies.goodbye
  · rw [answers_cons_of_goodbye rest ha hg]
    exact List.mem_singleton_self a
  · rw [answers_cons_of_ne rest ha hg]
    exact List.mem_cons_self

/-- Each sentence has an answer, and none of them is the goodbye. -/
def GoesOn (c : Conversation) (facts : Facts) (sentences : List Text) : Prop :=
  (c.answers facts sentences).length = sentences.length ∧
    c.lexicon.replies.goodbye ∉ c.answers facts sentences

theorem GoesOn.of_cons (h : c.GoesOn facts (sentence :: sentences)) :
    ∃ a, (c.respond facts sentence).answer = some a ∧ a ≠ c.lexicon.replies.goodbye ∧
      c.GoesOn (c.respond facts sentence).facts sentences := by
  obtain ⟨hlength, hnot⟩ := h
  cases ha : (c.respond facts sentence).answer with
  | none =>
    simp only [answers, ha] at hlength
    cases hlength
  | some a =>
    have hg : a ≠ c.lexicon.replies.goodbye := by
      intro hg
      rw [answers_cons_of_goodbye sentences ha hg, hg] at hnot
      exact hnot List.mem_cons_self
    rw [answers_cons_of_ne sentences ha hg] at hlength hnot
    exact ⟨a, rfl, hg, Nat.succ.inj hlength, fun h => hnot (List.mem_cons_of_mem a h)⟩

/-- More sentences are answered from the facts that the conversation has come to. -/
theorem GoesOn.append (h : c.GoesOn facts sentences) (more : List Text) :
    c.answers facts (sentences ++ more) =
        c.answers facts sentences ++ c.answers (c.course facts sentences).1 more ∧
      c.course facts (sentences ++ more) = c.course (c.course facts sentences).1 more := by
  induction sentences generalizing facts with
  | nil => exact ⟨rfl, rfl⟩
  | cons sentence rest ih =>
    obtain ⟨a, ha, hg, hrest⟩ := h.of_cons
    obtain ⟨hanswers, hcourse⟩ := ih hrest
    have hne : (c.respond facts sentence).answer ≠ some c.lexicon.replies.goodbye := by
      rw [ha, ne_eq, Option.some.injEq]
      exact hg
    rw [List.cons_append, answers_cons_of_ne _ ha hg, answers_cons_of_ne _ ha hg,
      course_cons_of_ne _ hne, course_cons_of_ne _ hne]
    exact ⟨by rw [hanswers, List.cons_append], hcourse⟩

theorem GoesOn.silent (h : c.GoesOn facts sentences) :
    (c.course facts sentences).2 = .silence := by
  induction sentences generalizing facts with
  | nil => rfl
  | cons sentence rest ih =>
    obtain ⟨a, ha, hg, hrest⟩ := h.of_cons
    rw [course_cons_of_ne]
    · exact ih hrest
    · rw [ha, ne_eq, Option.some.injEq]
      exact hg

end Syllogism.Conversation
