import Syllogism.Proofs.Sentence.Parts

/-! What an answer lists can be read off it, line by line, and no list reads like an answer that does
not depend on the facts. -/

namespace Syllogism

/-- Lines that are joined are taken apart again. -/
theorem Text.splitOn_joinLines {items : List Text} (hi : items ≠ [])
    (hl : ∀ t ∈ items, CodePoint.char '\n' ∉ t) :
    List.splitOn (CodePoint.char '\n') (joinLines items) = items :=
  List.splitOn_intercalate _ hl hi

namespace Conversation

variable {c : Conversation} {facts : Facts} {sentence t : Text} {found : List Text}

theorem PartOf.lineFeed_notMem (h : PartOf sentence t) (hs : CodePoint.char '\n' ∉ sentence) :
    CodePoint.char '\n' ∉ t := by
  obtain ⟨part, hp, rfl | rfl⟩ := h
  · exact fun ht => hs (hp.subset ht)
  · exact fun ht => hs (hp.subset (Text.mem_of_mem_upper_of_le ht (by decide)))

/-- Sentences of one line each leave no fact of several lines. -/
theorem lineFeed_notMem_of_mentions (hc : c.key = c.lexicon.key) {sentences : List Text}
    (hs : ∀ s ∈ sentences, CodePoint.char '\n' ∉ s)
    (h : (c.after OrderedMap.empty sentences).Mentions t) : CodePoint.char '\n' ∉ t := by
  rcases mentions_after hc h with h | ⟨s, hm, ht⟩
  · exact absurd h Facts.not_mentions_empty
  · exact ht.lineFeed_notMem (hs s hm)

/-- A list of what facts mention is no answer that does not depend on them. -/
theorem report_ne_reply {nothing : Text} (ht : Facts.Tidy c.key facts) (hf : found ≠ [])
    (hm : ∀ t ∈ found, facts.Mentions t) {r : Text} (hr : r ∈ Lexicon.italianReplies.all) :
    report found nothing ≠ r := by
  have hl : ∀ r ∈ Lexicon.italianReplies.all, CodePoint.char '\n' ∉ r := by decide
  intro h
  rw [report, if_neg (by simpa using hf)] at h
  exact ht.not_mentions_reply hr (hm r (Text.mem_of_joinLines_eq h hf (hl r hr)))

theorem splitOn_report {nothing : Text} (hf : found ≠ [])
    (hl : ∀ t ∈ found, CodePoint.char '\n' ∉ t) :
    List.splitOn (CodePoint.char '\n') (report found nothing) = found := by
  rw [report, if_neg (by simpa using hf), Text.splitOn_joinLines hf hl]

/-- After sentences of one line each, the answer to a question that finds something gives what it
found back, split at its line feeds, and is none of the answers that do not depend on the facts. -/
theorem listed_line_by_line (manner : Facts.Manner) (sentences : List Text) (sentence : Text)
    (hs : ∀ s ∈ sentences, CodePoint.char '\n' ∉ s) :
    let c : Conversation := ⟨Lexicon.italian, Lexicon.italian.key, manner⟩
    let facts := c.after OrderedMap.empty sentences
    (∀ subject found, c.lexicon.reading? sentence = some (.question subject) →
      facts.whatIs? c.key c.manner subject = some found → found ≠ [] →
      ∃ answer, (c.respond facts sentence).answer = some answer ∧
        List.splitOn (CodePoint.char '\n') answer = found ∧
        ∀ r ∈ c.lexicon.replies.all, answer ≠ r) ∧
    ∀ who object found, c.lexicon.reading? sentence = some (.whoQuestion who object) →
      facts.whoIs? c.key c.manner object = some found → found ≠ [] →
      ∃ answer, (c.respond facts sentence).answer = some answer ∧
        List.splitOn (CodePoint.char '\n') answer = found ∧
        ∀ r ∈ c.lexicon.replies.all, answer ≠ r := by
  intro c facts
  have ht : Facts.Tidy c.key facts := tidy_after Facts.tidy_empty sentences
  have hlisted : ∀ nothing found, found ≠ [] → (∀ t ∈ found, facts.Mentions t) →
      List.splitOn (CodePoint.char '\n') (report found nothing) = found ∧
        ∀ r ∈ c.lexicon.replies.all, report found nothing ≠ r := by
    intro nothing found hf hm
    constructor
    · exact splitOn_report hf fun t hmem => lineFeed_notMem_of_mentions rfl hs (hm t hmem)
    · exact fun r hr => report_ne_reply ht hf hm hr
  constructor
  · intro subject found hr hw hf
    refine ⟨report found c.lexicon.replies.unknown, ?_, hlisted _ found hf ?_⟩
    · rw [respond_of_reading? hr, respondTo, hw, Option.map_some]
    · exact fun a ha => .inr (Facts.exists_mem_attributes_of_whatIs? hw ha)
  · intro who object found hr hw hf
    refine ⟨report found c.lexicon.replies.dontKnow, ?_, hlisted _ found hf ?_⟩
    · rw [respond_of_reading? hr, respondTo, hw, Option.map_some]
    · exact fun k hk => .inl (Facts.mem_keys_of_whoIs? hw hk)

/-- A phrase that would read like another answer has lost its mark, or is in capitals. -/
theorem listed_line_by_line_ciao :
    let c : Conversation := ⟨Lexicon.italian, Lexicon.italian.key, .guarded⟩
    let facts := c.after OrderedMap.empty
      ["Il saluto è Ciao.", "il SALUTO è una parola", "Ok. è una parola?"]
    (c.respond facts "Cosa sai su un saluto?").answer = some "Ciao\nuna parola" ∧
    List.splitOn (CodePoint.char '\n') "Ciao\nuna parola" = [Text.of "Ciao", "una parola"] ∧
    (c.respond facts "Chi è una parola").answer = some "SALUTO\nOK." ∧
    List.splitOn (CodePoint.char '\n') "SALUTO\nOK." = [Text.of "SALUTO", "OK."] ∧
    ∀ r ∈ c.lexicon.replies.all, Text.of "Ciao\nuna parola" ≠ r ∧ Text.of "SALUTO\nOK." ≠ r := by
  intro c facts
  have hl : ∀ s ∈ [Text.of "Il saluto è Ciao.", "il SALUTO è una parola", "Ok. è una parola?"],
      CodePoint.char '\n' ∉ s := by decide
  obtain ⟨hwhat, -⟩ := listed_line_by_line .guarded _ "Cosa sai su un saluto?" hl
  obtain ⟨-, hwho⟩ := listed_line_by_line .guarded _ "Chi è una parola" hl
  have hfacts : facts = ⟨[(Text.of "SALUTO", [Text.of "Ciao", "una parola"]),
      (Text.of "OK.", [Text.of "una parola"])], by decide⟩ := by decide +kernel
  have hsaluto : facts.whatIs? c.key c.manner "un saluto" = some [Text.of "Ciao", "una parola"] := by
    rw [hfacts]; decide +kernel
  have hparola : facts.whoIs? c.key c.manner "una parola" = some [Text.of "SALUTO", "OK."] := by
    rw [hfacts]; decide +kernel
  obtain ⟨answer, ha, hsplit, hne⟩ := hwhat "un saluto" _ (by decide +kernel) hsaluto (by decide)
  obtain ⟨answer', ha', hsplit', hne'⟩ :=
    hwho "Chi" "una parola" _ (by decide +kernel) hparola (by decide)
  have hciao : (c.respond facts "Cosa sai su un saluto?").answer = some "Ciao\nuna parola" := by
    rw [hfacts]; decide +kernel
  have hok : (c.respond facts "Chi è una parola").answer = some "SALUTO\nOK." := by
    rw [hfacts]; decide +kernel
  obtain rfl := Option.some.inj (ha.symm.trans hciao)
  obtain rfl := Option.some.inj (ha'.symm.trans hok)
  exact ⟨hciao, hsplit, hok, hsplit', fun r hr => ⟨hne r hr, hne' r hr⟩⟩

end Conversation

end Syllogism
