import Mathlib.Data.List.Find
import Syllogism.Lexicon.Italian
import Syllogism.Proofs.Lexicon.Key
import Syllogism.Proofs.Text.Prefix
import Syllogism.Proofs.Text.SameCase

/-! The article in front of a phrase. Of the Italian articles a phrase has at most one, so their
order does not matter. Whatever the articles are, something is left of a phrase, unless it is
blank. -/

namespace Syllogism

namespace Text

variable {articles : List Text} {t a b : Text} {c : CodePoint}

theorem dropArticle_suffix (articles : List Text) (t : Text) :
    dropArticle articles t <:+ trim t := by
  simp only [dropArticle]
  split
  · exact List.suffix_rfl
  · split
    · exact List.suffix_rfl
    · exact suffix_trim (List.drop_suffix _ t)

theorem trim_eq_nil_iff : trim t = [] ↔ blank t = true := by
  refine ⟨fun h => ?_, trim_of_blank⟩
  obtain ⟨u, v, ht, hu, hv⟩ := exists_trim t
  rw [ht, h, List.append_nil, blank, List.all_append, Bool.and_eq_true]
  exact ⟨hu, hv⟩

/-- An article on its own stays, so nothing is left only of white space. -/
theorem dropArticle_eq_nil_iff : dropArticle articles t = [] ↔ blank t = true := by
  rw [← trim_eq_nil_iff]
  constructor
  · intro h
    by_contra hn
    exact dropArticle_ne_nil hn h
  · intro h
    have hs := dropArticle_suffix articles t
    rwa [h, List.suffix_nil] at hs

/-! Words -/

theorem foldCase_apply_of_isBlank (h : isBlank c = true) : foldCase.apply c = [c] := by
  have hs : ∀ r ∈ blankRuns, foldCase.spares r = true := by decide +kernel
  obtain ⟨r, hr, hn⟩ := exists_run_of_isBlank h
  exact CaseMap.apply_eq_self hn (hs r hr)

theorem mem_fold_of_isBlank (hc : c ∈ t) (h : isBlank c = true) : c ∈ fold t := by
  have hm : c ∈ foldCase.apply c := foldCase_apply_of_isBlank h ▸ List.mem_singleton_self c
  exact List.mem_flatMap.mpr ⟨c, hc, hm⟩

/-- The list holds words: none of them has white space in it, and none opens with an elided one but
that itself. -/
structure AreWords (articles : List Text) : Prop where
  ne_nil : ∀ a ∈ articles, a ≠ []
  solid : ∀ a ∈ articles, ∀ c ∈ fold a, isBlank c = false
  elided : ∀ a ∈ articles, ∀ b ∈ articles, b.getLast?.any isApostrophe = true →
    fold b <+: fold a → b.length = a.length

theorem areWords_italian : AreWords Lexicon.italianArticles :=
  ⟨by decide +kernel, by decide +kernel, by decide +kernel⟩

/-- What a word is compared with has no white space in it. -/
theorem AreWords.not_blank (hw : AreWords articles) (ha : a ∈ articles) (h : opensWith t a = true)
    (hc : c ∈ t.take a.length) : isBlank c = false := by
  refine Bool.eq_false_iff.mpr fun hb => ?_
  have hm := mem_fold_of_isBlank hc hb
  rw [(opensWith_eq_true_iff.mp h).2.2] at hm
  rw [hw.solid a ha c hm] at hb
  cases hb

/-- No word that opens a phrase is longer than the one that stands alone in front of it. -/
theorem AreWords.length_le_of_hasArticle (hw : AreWords articles) (ha : a ∈ articles)
    (hb : b ∈ articles) (hta : hasArticle t a = true) (htb : opensWith t b = true) :
    b.length ≤ a.length := by
  by_contra hlt
  rw [Nat.not_le] at hlt
  obtain ⟨hopens, halone⟩ := Bool.and_eq_true_iff.mp hta
  obtain ⟨-, hle, hfold⟩ := opensWith_eq_true_iff.mp htb
  rw [standsAlone, Bool.or_eq_true] at halone
  rcases halone with helided | hblank
  · have hp : fold a <+: fold b := by
      have htake : opensWith (t.take b.length) a = true := by
        rw [opensWith_eq_true_iff] at hopens ⊢
        rw [List.length_take_of_le hle, List.take_take, Nat.min_eq_left hlt.le]
        exact ⟨hopens.1, hlt.le, hopens.2.2⟩
      exact hfold ▸ fold_prefix_of_opensWith htake
    exact hlt.ne (hw.elided b hb a ha helided hp)
  · -- what follows `a` is compared with a character of `b`, which has no white space in it
    have hmem : t[a.length] ∈ t.take b.length :=
      List.mem_take_iff_getElem.mpr ⟨a.length, by omega, rfl⟩
    rw [List.drop_eq_getElem_cons (hlt.trans_le hle), List.head?_cons, Option.any_some,
      hw.not_blank hb htb hmem] at hblank
    cases hblank

/-- A phrase has one article at most, if no two of them differ only in case. -/
theorem AreWords.eq_of_hasArticle (hw : AreWords articles)
    (hinj : ∀ a ∈ articles, ∀ b ∈ articles, fold a = fold b → a = b) (ha : a ∈ articles)
    (hb : b ∈ articles) (hta : hasArticle t a = true) (htb : hasArticle t b = true) : a = b := by
  have hoa := (Bool.and_eq_true_iff.mp hta).1
  have hob := (Bool.and_eq_true_iff.mp htb).1
  have hlength : a.length = b.length := Nat.le_antisymm
    (hw.length_le_of_hasArticle hb ha htb hoa) (hw.length_le_of_hasArticle ha hb hta hob)
  refine hinj a ha b hb ?_
  rw [← (opensWith_eq_true_iff.mp hoa).2.2, hlength, (opensWith_eq_true_iff.mp hob).2.2]

end Text

namespace Lexicon

open Text

theorem eq_of_hasArticle_italian {t a b : Text} (ha : a ∈ italianArticles)
    (hb : b ∈ italianArticles) (hta : hasArticle t a = true) (htb : hasArticle t b = true) :
    a = b := by
  have hinj : ∀ a ∈ italianArticles, ∀ b ∈ italianArticles, fold a = fold b → a = b := by
    decide +kernel
  exact areWords_italian.eq_of_hasArticle hinj ha hb hta htb

/-- A phrase has at most one of the Italian articles, so their order changes neither what is left of
the phrase nor its key. -/
theorem articles_in_any_order (t : Text) :
    (∀ a ∈ italianArticles, ∀ b ∈ italianArticles,
      hasArticle t a = true → hasArticle t b = true → a = b) ∧
    (∀ articles : List Text, articles.Perm italianArticles →
      dropArticle articles t = dropArticle italianArticles t) ∧
    ∀ l : Lexicon, l.articles.Perm italianArticles → l.key t = italian.key t := by
  have hdrop : ∀ articles : List Text, articles.Perm italianArticles →
      dropArticle articles t = dropArticle italianArticles t := by
    intro articles hp
    have hfind : (articles.find? fun a => hasArticle t a) =
        italianArticles.find? fun a => hasArticle t a :=
      List.find?_eq_find?_of_perm hp fun a ha b hb =>
        eq_of_hasArticle_italian (hp.mem_iff.mp ha.1) (hp.mem_iff.mp hb.1) ha.2 hb.2
    simp only [dropArticle, hfind]
  refine ⟨fun a ha b hb => eq_of_hasArticle_italian ha hb, hdrop, fun l hp => ?_⟩
  exact congrArg plainKey (hdrop l.articles hp)

/-- From the last article to the first, `L` comes before the elided forms. -/
theorem articles_in_any_order_amica :
    hasArticle "Un'amica" "UN'" = true ∧
    (∀ a ∈ italianArticles, hasArticle "Un'amica" a = true → a = "UN'") ∧
    italianArticles.reverse.Perm italianArticles ∧
    dropArticle italianArticles.reverse "Un'amica" = "amica" ∧
    ({ italian with articles := italianArticles.reverse } : Lexicon).key "Un'amica" = "AMICA" := by
  have hun : hasArticle "Un'amica" "UN'" = true := by decide +kernel
  have hdrop : dropArticle italianArticles "Un'amica" = "amica" := by decide +kernel
  have hkey : italian.key "Un'amica" = "AMICA" := by decide +kernel
  have hp := List.reverse_perm italianArticles
  obtain ⟨hone, hleft, hsame⟩ := articles_in_any_order "Un'amica"
  refine ⟨hun, fun a ha h => hone a ha _ (by decide) h hun, hp, ?_, ?_⟩
  · rw [hleft _ hp, hdrop]
  · rw [hsame _ hp, hkey]

/-- Where one article opens with an elided one, it does matter which comes first. -/
example : dropArticle [Text.of "L'", "L'A"] "l'a capo" = "a capo" ∧
    dropArticle [Text.of "L'A", "L'"] "l'a capo" = "capo" := by decide +kernel

/-- What is left of a phrase is trimmed and ends the trimmed phrase, and it is empty only if the
phrase is blank. So the key of any other phrase is not empty, is trimmed, and is its own key. -/
theorem key_never_blank :
    (∀ (articles : List Text) (t : Text), Trimmed (dropArticle articles t) ∧
      dropArticle articles t <:+ trim t ∧ (dropArticle articles t = [] ↔ blank t = true)) ∧
    ∀ (l : Lexicon) (phrase : Text), blank phrase = false →
      l.key phrase ≠ [] ∧ Trimmed (l.key phrase) ∧ plainKey (l.key phrase) = l.key phrase := by
  constructor
  · intro articles t
    exact ⟨trimmed_dropArticle articles t, dropArticle_suffix articles t, dropArticle_eq_nil_iff⟩
  · intro l phrase hb
    have hn : trim phrase ≠ [] := fun h => by
      rw [trim_eq_nil_iff.mp h] at hb
      cases hb
    exact ⟨key_ne_nil hn, (trimmed_trim _).upper, plainKey_key l phrase⟩

/-- Two articles with white space in them open the phrase, and the first one is taken off. -/
theorem key_never_blank_strasse :
    let l : Lexicon := { italian with articles := [Text.of " DE", " DE LA"] }
    blank " de la Straße\t" = false ∧ dropArticle l.articles " de la Straße\t" = "la Straße" ∧
    l.key " de la Straße\t" = "LA STRASSE" ∧ plainKey "LA STRASSE" = "LA STRASSE" := by
  intro l
  have hb : blank " de la Straße\t" = false := by decide
  have hk : l.key " de la Straße\t" = "LA STRASSE" := by decide +kernel
  have h := (key_never_blank.2 l " de la Straße\t" hb).2.2
  rw [hk] at h
  exact ⟨hb, by decide +kernel, hk, h⟩

end Lexicon

end Syllogism
