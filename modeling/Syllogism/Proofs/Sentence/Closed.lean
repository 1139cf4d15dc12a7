import Syllogism.Proofs.Sentence.Grows

/-! What stands around a sentence is not part of it: white space in front, and white space and marks
behind. -/

namespace Syllogism

open Text (isClosing stripMarks trimStart)

variable {s u v : Text}

theorem Lexicon.reading?_padded (l : Lexicon) (hu : Text.blank u = true)
    (hv : v.all isClosing = true) (s : Text) : l.reading? (u ++ s ++ v) = l.reading? s := by
  rw [reading?, reading?, Text.stripMarks_padded hu hv]

theorem Text.blank_padded (hs : Text.blank s = false) (u v : Text) :
    Text.blank (u ++ s ++ v) = false := by
  rw [blank, List.all_append, List.all_append, ← blank, ← blank, hs, Bool.and_false, Bool.false_and]

namespace Conversation

/-- The two responses differ in the sentence that is noted. -/
theorem respond_padded (c : Conversation) (facts : Facts) (hs : Text.blank s = false)
    (hu : Text.blank u = true) (hv : v.all isClosing = true) :
    let r := c.respond facts s
    let r' := c.respond facts (u ++ s ++ v)
    r'.answer = r.answer ∧ r'.facts = r.facts ∧ r'.farewell = r.farewell := by
  intro r r'
  have hr : r' = { r with events := r'.events } := by
    simp only [r, r', respond, Text.blank_padded hs, hs, c.lexicon.reading?_padded hu hv]
    cases c.lexicon.reading? s <;> rfl
  rw [hr]
  exact ⟨rfl, rfl, rfl⟩

/-- Where notes leave no trace, neither does what stands around the sentence. -/
theorem process_padded {σ : Type} (c : Conversation) (around : Surroundings σ)
    (hn : ∀ events st, around.note events st = st) (facts : Facts) (st : σ)
    (hs : Text.blank s = false) (hu : Text.blank u = true) (hv : v.all isClosing = true) :
    c.process around facts st (u ++ s ++ v) = c.process around facts st s := by
  obtain ⟨ha, hf, hb⟩ := c.respond_padded facts hs hu hv
  simp only [process, hn, ha, hf, hb]

/-- A sentence loses the white space in front and the longest ending of white space and marks, once
and for all. So a sentence that is not blank is answered and remembered as it is with any of these
around it, and a farewell in it sets off the same. -/
theorem closing_ignored :
    (∀ t, (∃ w v, t = w ++ v ∧ v.all isClosing = true ∧
        (∀ v', v' <:+ t → v'.all isClosing = true → v' <:+ v) ∧ stripMarks t = trimStart w) ∧
      stripMarks (stripMarks t) = stripMarks t) ∧
    ∀ (c : Conversation) (facts : Facts) (s u v : Text), Text.blank s = false →
      Text.blank u = true → v.all isClosing = true →
      (let r := c.respond facts s
        let r' := c.respond facts (u ++ s ++ v)
        r'.answer = r.answer ∧ r'.facts = r.facts ∧ r'.farewell = r.farewell) ∧
      ∀ {σ : Type} (around : Surroundings σ) (st : σ),
        (∀ events st, around.note events st = st) →
          c.process around facts st (u ++ s ++ v) = c.process around facts st s := by
  refine ⟨fun t => ⟨?_, Text.stripMarks_stripMarks t⟩, ?_⟩
  · obtain ⟨v, ht, hv, hlongest⟩ := Text.exists_dropEndWhile isClosing t
    exact ⟨_, v, ht, hv, hlongest, (Text.trimStart_dropEndWhile t).symm⟩
  · intro c facts s u v hs hu hv
    exact ⟨c.respond_padded facts hs hu hv,
      fun around st hn => c.process_padded around hn facts st hs hu hv⟩

/-- Marks within the sentence stay, so the full stop of the subject is kept. -/
theorem closing_ignored_sig :
    let c : Conversation := ⟨Lexicon.italian, Lexicon.italian.key, .guarded⟩
    let facts := c.after OrderedMap.empty ["\t Il sig. è un uomo. ?.\n"]
    let saves : Surroundings Nat := ⟨fun _ n => n, fun _ n => (.ok (), n + 1)⟩
    facts = c.after OrderedMap.empty ["Il sig. è un uomo"] ∧
    facts.attributes "SIG." = [Text.of "un uomo"] ∧
    c.process saves facts 7 " ciao .? " = c.process saves facts 7 "ciao" ∧
    (c.process saves facts 7 "ciao").state = 8 := by
  intro c facts saves
  obtain ⟨-, h⟩ := closing_ignored
  obtain ⟨hsig, -⟩ :=
    h c OrderedMap.empty "Il sig. è un uomo" "\t " ". ?.\n" (by decide) (by decide) (by decide)
  obtain ⟨-, hciao⟩ := h c facts "ciao" " " " .? " (by decide) (by decide) (by decide)
  exact ⟨hsig.2.1, by decide +kernel, hciao saves 7 fun _ _ => rfl, by decide +kernel⟩

end Conversation

end Syllogism
