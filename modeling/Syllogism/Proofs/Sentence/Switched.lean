import Syllogism.Proofs.Sentence.Reported

/-! Who has an attribute, asked of the same facts in both manners. The walk goes on from a subject as it
is stored, the recursion from its key as a phrase. They part where a subject on the way starts with
an article. -/

namespace Syllogism

namespace Conversation

open Relation

variable {a k : Text}

/-- How questions are answered makes no difference to what is told. -/
theorem facts_respond_manner (l : Lexicon) (key : Text → Text) (manner manner' : Facts.Manner)
    (facts : Facts) (sentence : Text) :
    (respond ⟨l, key, manner⟩ facts sentence).facts =
      (respond ⟨l, key, manner'⟩ facts sentence).facts := by
  unfold respond
  split
  · rfl
  · cases l.reading? sentence with
    | none => rfl
    | some reading => cases reading <;> rfl

theorem after_manner (l : Lexicon) (key : Text → Text) (manner manner' : Facts.Manner)
    (facts : Facts) (sentences : List Text) :
    after ⟨l, key, manner⟩ facts sentences = after ⟨l, key, manner'⟩ facts sentences := by
  induction sentences generalizing facts with
  | nil => rfl
  | cons sentence sentences ih =>
    have hf := facts_respond_manner l key manner manner' facts sentence
    rw [after, List.foldl_cons, hf]
    exact ih _

/-- A subject that was told is its own key if it has no article to lose. -/
theorem key_eq_self_of_tidy {facts : Facts} (ht : Facts.Tidy Lexicon.italian.key facts)
    (hk : k ∈ facts.keys) (hd : Text.dropArticle Lexicon.italian.articles k = k) :
    Lexicon.italian.key k = k :=
  Lexicon.key_eq_self (ht.subject k hk).2 hd

/-- The recursion finds the subjects that questions come to, one after the other, unless the questions
come round. Where the links lead round no cycle, and no subject that leads to the attribute has an
article to lose, it ends and finds the same subjects as the walk. -/
theorem found_in_both_modes (manner : Facts.Manner) (sentences : List Text) (a : Text) :
    let c : Conversation := ⟨Lexicon.italian, Lexicon.italian.key, manner⟩
    let facts := c.after OrderedMap.empty sentences
    (∀ manner', after ⟨c.lexicon, c.key, manner'⟩ OrderedMap.empty sentences = facts) ∧
    (∀ depth found, facts.whoIsWithin c.key depth a = some found →
      ∀ k, k ∈ found ↔ TransGen (Facts.Asks c.key facts) a k) ∧
    ((∀ depth, facts.whoIsWithin c.key depth a = none) ↔
      ∃ k, ReflTransGen (Facts.Asks c.key facts) a k ∧ TransGen (Facts.Asks c.key facts) k k) ∧
    ((¬ ∃ k, TransGen (Facts.Leads c.key facts) k k) →
      (∀ k, TransGen (Facts.Leads c.key facts) k (c.key a) →
        Text.dropArticle c.lexicon.articles k = k) →
      ∃ walked, facts.whoIs? c.key .guarded a = some walked ∧
        (∀ depth, facts.size < depth → ∃ found, facts.whoIsWithin c.key depth a = some found ∧
          ∀ k, k ∈ found ↔ k ∈ walked) ∧
        ∀ room found, facts.whoIs? c.key (.unguarded room) a = some found →
          ∀ k, k ∈ found ↔ k ∈ walked) := by
  intro c facts
  have ht : Facts.Tidy c.key facts := tidy_after Facts.tidy_empty sentences
  refine ⟨?_, ?_, Facts.whoIsWithin_eq_none_iff, ?_⟩
  · exact fun manner' => after_manner _ _ _ _ _ _
  · exact fun depth found hw k => Facts.mem_whoIsWithin_iff hw
  · intro hc hd
    have hkeys : ∀ k, TransGen (Facts.Leads c.key facts) k (c.key a) → c.key k = k :=
      fun k hk => key_eq_self_of_tidy ht (Facts.mem_keys_of_transGen hk) (hd k hk)
    -- both find the subjects from which links lead to the attribute
    have hsame : ∀ depth found, facts.whoIsWithin c.key depth a = some found →
        ∀ k, k ∈ found ↔ k ∈ facts.whoIs c.key a := by
      intro depth found hw k
      rw [Facts.mem_whoIsWithin_iff hw, Facts.transGen_asks_iff hkeys, Facts.mem_whoIs]
    refine ⟨_, rfl, ?_, fun room => hsame room.whoIs⟩
    intro depth hdepth
    have hc' : ¬ ∃ k, ReflTransGen (Facts.Leads c.key facts) k (c.key a) ∧
        TransGen (Facts.Leads c.key facts) k k := fun ⟨k, _, hk⟩ => hc ⟨k, hk⟩
    obtain ⟨found, hw⟩ := Facts.exists_whoIsWithin hkeys hc'
    exact ⟨found, hw depth hdepth, hsame depth found (hw depth hdepth)⟩

/-- The recursion comes to one of the subjects in two ways. Elsewhere there is one with an article to
lose. -/
theorem found_in_both_modes_gatto :
    let c : Conversation := ⟨Lexicon.italian, Lexicon.italian.key, .guarded⟩
    let facts := c.after OrderedMap.empty ["Il gatto è un felino", "Il gatto è un animale",
      "Il felino è un animale", "La Le Mans è una corsa"]
    (¬ ∃ k, TransGen (Facts.Leads c.key facts) k k) ∧
    (∀ k, TransGen (Facts.Leads c.key facts) k (c.key "un animale") →
      Text.dropArticle c.lexicon.articles k = k) ∧
    facts.whoIs? c.key .guarded "un animale" = some [Text.of "GATTO", "FELINO"] ∧
    facts.whoIs? c.key (.unguarded ⟨900, 900⟩) "un animale" =
      some [Text.of "GATTO", "FELINO", "GATTO"] ∧
    ∀ k, k ∈ [Text.of "GATTO", "FELINO", "GATTO"] ↔ k ∈ [Text.of "GATTO", "FELINO"] := by
  intro c facts
  obtain ⟨-, -, -, hsame⟩ := found_in_both_modes .guarded ["Il gatto è un felino",
    "Il gatto è un animale", "Il felino è un animale", "La Le Mans è una corsa"] "un animale"
  have hfacts : facts = ⟨[(Text.of "GATTO", [Text.of "un felino", "un animale"]),
      (Text.of "FELINO", [Text.of "un animale"]), (Text.of "LE MANS", [Text.of "una corsa"])],
      by decide⟩ := by decide +kernel
  have hc : ¬ ∃ k, TransGen (Facts.Leads c.key facts) k k := by rw [hfacts]; decide +kernel
  have hd : ∀ k ∈ facts.keys, TransGen (Facts.Leads c.key facts) k (c.key "un animale") →
      Text.dropArticle c.lexicon.articles k = k := by rw [hfacts]; decide +kernel
  have hd' : ∀ k, TransGen (Facts.Leads c.key facts) k (c.key "un animale") →
      Text.dropArticle c.lexicon.articles k = k :=
    fun k hk => hd k (Facts.mem_keys_of_transGen hk) hk
  have hg : facts.whoIs? c.key .guarded "un animale" = some [Text.of "GATTO", "FELINO"] := by
    rw [hfacts]; decide +kernel
  have hu : facts.whoIs? c.key (.unguarded ⟨900, 900⟩) "un animale" =
      some [Text.of "GATTO", "FELINO", "GATTO"] := by rw [hfacts]; decide +kernel
  obtain ⟨walked, hwalked, -, hfound⟩ := hsame hc hd'
  obtain rfl := Option.some.inj (hwalked.symm.trans hg)
  exact ⟨hc, hd', hg, hu, hfound _ _ hu⟩

/-- The name of a race loses its article when the recursion asks for it. What is behind it is not
found then, or the name itself for ever, and no links lead round a cycle. -/
theorem name_loses_article :
    let c : Conversation := ⟨Lexicon.italian, Lexicon.italian.key, .guarded⟩
    let facts := c.after OrderedMap.empty ["La Le Mans è una corsa", "La gara è la Le Mans"]
    let facts' := c.after OrderedMap.empty ["La Le Mans è Mans"]
    ((¬ ∃ k, TransGen (Facts.Leads c.key facts) k k) ∧
      facts.whoIs? c.key .guarded "una corsa" = some [Text.of "LE MANS", "GARA"] ∧
      facts.whoIs? c.key (.unguarded ⟨900, 900⟩) "una corsa" = some [Text.of "LE MANS"] ∧
      ¬ ∀ k, k ∈ [Text.of "LE MANS"] ↔ k ∈ [Text.of "LE MANS", "GARA"]) ∧
    (¬ ∃ k, TransGen (Facts.Leads c.key facts') k k) ∧
    facts'.whoIs? c.key .guarded "Mans" = some [Text.of "LE MANS"] ∧
    ∀ depth, facts'.whoIsWithin c.key depth "Mans" = none := by
  intro c facts facts'
  have hfacts : facts = ⟨[(Text.of "LE MANS", [Text.of "una corsa"]),
      (Text.of "GARA", [Text.of "la Le Mans"])], by decide⟩ := by decide +kernel
  have hfacts' : facts' = ⟨[(Text.of "LE MANS", [Text.of "Mans"])], by decide⟩ := by decide +kernel
  have hgara : ¬ (Text.of "GARA" ∈ [Text.of "LE MANS"] ↔
      Text.of "GARA" ∈ [Text.of "LE MANS", "GARA"]) := by decide
  have hmans : Facts.Asks c.key facts' "Mans" "LE MANS" := by
    rw [hfacts', Facts.Asks]; decide +kernel
  have hround : Facts.Asks c.key facts' "LE MANS" "LE MANS" := by
    rw [hfacts', Facts.Asks]; decide +kernel
  refine ⟨⟨?_, ?_, ?_, fun h => hgara (h _)⟩, ?_, ?_, ?_⟩
  · rw [hfacts]; decide +kernel
  · rw [hfacts]; decide +kernel
  · rw [hfacts]; decide +kernel
  · rw [hfacts']; decide +kernel
  · rw [hfacts']; decide +kernel
  · exact Facts.whoIsWithin_eq_none_iff.mpr ⟨"LE MANS", .single hmans, .single hround⟩

end Conversation

end Syllogism
