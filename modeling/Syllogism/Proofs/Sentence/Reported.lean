import Syllogism.Proofs.Sentence.Asked

/-! A subject that is reported is a phrase in its turn. One article goes from a phrase, so a subject
that starts with a second one is asked for with the first. -/

namespace Syllogism

namespace Lexicon

variable {l : Lexicon} {k : Text}

theorem key_eq_self (hk : plainKey k = k) (h : Text.dropArticle l.articles k = k) : l.key k = k := by
  rw [key, h, hk]

theorem trimmed_of_plainKey (hk : plainKey k = k) : k.Trimmed := by
  have h : (plainKey k).Trimmed := (Text.trimmed_trim k).upper
  rwa [hk] at h

/-- Behind an article stands the subject, whatever its first word is. -/
theorem dropArticle_la (hn : k ≠ []) (ht : k.Trimmed) :
    Text.dropArticle italianArticles (Text.of "LA " ++ k) = k := by
  have ha : ∀ a ∈ italianArticles.take 7, Text.Apart (Text.fold a) (Text.fold "LA ") := by
    decide +kernel
  have hsplit : italianArticles.take 7 ++ Text.of "LA" :: italianArticles.drop 8 = italianArticles :=
    rfl
  have hno : (italianArticles.take 7).find? (Text.hasArticle (Text.of "LA " ++ k)) = none := by
    rw [List.find?_eq_none]
    intro a h
    simp [Text.hasArticle, Text.opensWith_append_of_apart (ha a h)]
  have hla : Text.hasArticle (Text.of "LA " ++ k) "LA" = true := by
    have ho := Text.opensWith_append_self (show Text.of "LA" ≠ [] by decide) (CodePoint.char ' ' :: k)
    rw [Text.hasArticle, Bool.and_eq_true]
    exact ⟨ho, rfl⟩
  have hfind : italianArticles.find? (Text.hasArticle (Text.of "LA " ++ k)) =
      some (Text.of "LA") := by
    rw [← hsplit, List.find?_append, hno, List.find?_cons_of_pos hla, Option.none_or]
  have hrest : Text.trim ((Text.of "LA " ++ k).drop (Text.of "LA").length) = k := by
    have hd : (Text.of "LA " ++ k).drop (Text.of "LA").length = CodePoint.char ' ' :: k := rfl
    rw [hd, Text.trim, Text.trimStart_cons_of_blank rfl, ← Text.trim, ht.trim_eq]
  rw [Text.dropArticle, hfind]
  simp only [hrest]
  simp [hn]

theorem key_la (hn : k ≠ []) (hk : plainKey k = k) : italian.key (Text.of "LA " ++ k) = k := by
  have h : Text.dropArticle italian.articles (Text.of "LA " ++ k) = k :=
    dropArticle_la hn (trimmed_of_plainKey hk)
  rw [key, h, hk]

end Lexicon

namespace Conversation

variable {k a : Text}

/-- A subject of an answer is asked for, and the answer to that has the phrase again: always with an
article in front of the subject, and without one if the subject has no article to lose. The
recursion needs that of all subjects, as it asks for them in their turn. -/
theorem reported_asked_again (manner : Facts.Manner) (sentences : List Text) (a k : Text) :
    let c : Conversation := ⟨Lexicon.italian, Lexicon.italian.key, manner⟩
    let facts := c.after OrderedMap.empty sentences
    (∀ found, facts.whoIs? c.key .guarded a = some found → k ∈ found →
      (∃ answer, facts.whatIs? c.key .guarded (Text.of "LA " ++ k) = some answer ∧
        ∃ b ∈ answer, c.key b = c.key a) ∧
      (Text.dropArticle c.lexicon.articles k = k →
        ∃ answer, facts.whatIs? c.key .guarded k = some answer ∧ ∃ b ∈ answer, c.key b = c.key a)) ∧
    ((∀ j ∈ facts.keys, Text.dropArticle c.lexicon.articles j = j) →
      ∀ room room' found answer, facts.whoIs? c.key (.unguarded room) a = some found → k ∈ found →
        facts.whatIs? c.key (.unguarded room') k = some answer →
          ∃ b ∈ answer, c.key b = c.key a) := by
  intro c facts
  have ht : Facts.Tidy c.key facts := tidy_after Facts.tidy_empty sentences
  have hkey : c.key = Lexicon.italian.key := rfl
  constructor
  · intro found hf hk
    obtain rfl := Option.some.inj hf
    have hl : Relation.TransGen (Facts.Leads c.key facts) k (c.key a) := Facts.mem_whoIs.mp hk
    obtain ⟨hn, hp⟩ := ht.subject k (Facts.mem_keys_of_transGen hl)
    constructor
    · have hkk : c.key (Text.of "LA " ++ k) = k := by rw [hkey, Lexicon.key_la hn hp]
      exact Facts.exists_whatIs?_of_transGen hkk hl
    · intro hd
      have hkk : c.key k = k := by rw [hkey, Lexicon.key_eq_self hp hd]
      exact Facts.exists_whatIs?_of_transGen hkk hl
  · intro hd room room' found answer hf hk hanswer
    have hkeys : ∀ j ∈ facts.keys, c.key j = j := by
      intro j hj
      rw [hkey, Lexicon.key_eq_self (ht.subject j hj).2 (hd j hj)]
    have hl := Facts.transGen_of_mem_whoIsWithin hkeys hf hk
    have hkk := hkeys k (Facts.mem_keys_of_transGen hl)
    exact Facts.exists_mem_whatIs?_of_transGen hanswer (hkk.symm ▸ hl)

/-- The name of a race that its town names is found with the article, the rest without. -/
theorem reported_asked_again_le_mans :
    let c : Conversation := ⟨Lexicon.italian, Lexicon.italian.key, .guarded⟩
    let facts := c.after OrderedMap.empty ["La Le Mans è una corsa", "La gara è la Le Mans"]
    facts.whoIs? c.key .guarded "una corsa" = some [Text.of "LE MANS", "GARA"] ∧
    (∃ answer, facts.whatIs? c.key .guarded "LA LE MANS" = some answer ∧
      ∃ b ∈ answer, c.key b = c.key "una corsa") ∧
    ∃ answer, facts.whatIs? c.key .guarded "GARA" = some answer ∧
      ∃ b ∈ answer, c.key b = c.key "una corsa" := by
  intro c facts
  obtain ⟨hmans, -⟩ := reported_asked_again .guarded
    ["La Le Mans è una corsa", "La gara è la Le Mans"] "una corsa" "LE MANS"
  obtain ⟨hgara, -⟩ := reported_asked_again .guarded
    ["La Le Mans è una corsa", "La gara è la Le Mans"] "una corsa" "GARA"
  have hw : facts.whoIs? c.key .guarded "una corsa" = some [Text.of "LE MANS", "GARA"] := by
    decide +kernel
  have hd : Text.dropArticle c.lexicon.articles "GARA" = "GARA" := by decide +kernel
  exact ⟨hw, (hmans _ hw (by simp)).1, (hgara _ hw (by simp)).2 hd⟩

/-- A subject that starts with an article loses it when it is asked for as it was reported, since one
article goes from a phrase. The recursion takes one from a subject on the way as well, where no phrase
is asked for. -/
theorem second_article_lost :
    let c : Conversation := ⟨Lexicon.italian, Lexicon.italian.key, .guarded⟩
    let facts := c.after OrderedMap.empty ["La Le Mans è una corsa", "Il pilota è Mans"]
    (facts.whoIs? c.key .guarded "una corsa" = some [Text.of "LE MANS"] ∧
      ¬ ∃ answer, facts.whatIs? c.key .guarded "LE MANS" = some answer ∧
        ∃ b ∈ answer, c.key b = c.key "una corsa") ∧
    facts.whoIs? c.key (.unguarded ⟨900, 900⟩) "una corsa" = some [Text.of "LE MANS", "PILOTA"] ∧
    ¬ ∃ answer, facts.whatIs? c.key (.unguarded ⟨900, 900⟩) "PILOTA" = some answer ∧
      ∃ b ∈ answer, c.key b = c.key "una corsa" := by
  intro c facts
  refine ⟨⟨by decide +kernel, ?_⟩, by decide +kernel, ?_⟩
  · intro ⟨answer, hanswer, b, hb, _⟩
    have hnone : facts.whatIs? c.key .guarded "LE MANS" = some [] := by decide +kernel
    obtain rfl := Option.some.inj (hanswer.symm.trans hnone)
    cases hb
  · intro ⟨answer, hanswer, b, hb, hkey⟩
    have hmans : facts.whatIs? c.key (.unguarded ⟨900, 900⟩) "PILOTA" = some [Text.of "Mans"] := by
      decide +kernel
    obtain rfl := Option.some.inj (hanswer.symm.trans hmans)
    obtain rfl := List.mem_singleton.mp hb
    exact absurd hkey (by decide +kernel)

end Conversation

end Syllogism
