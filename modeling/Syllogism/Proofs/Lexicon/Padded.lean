import Syllogism.Proofs.Lexicon.Article

/-! White space around a phrase. Behind the phrase it does not change the key; in front of it, it
hides the article. -/

namespace Syllogism

namespace Text

variable {articles : List Text} {t u v p a : Text} {c : CodePoint}

/-! Articles -/

/-- Where nothing but white space follows any article in front, the phrase stays whole. -/
theorem dropArticle_eq_trim
    (h : ∀ a ∈ articles, hasArticle t a = true → blank (t.drop a.length) = true) :
    dropArticle articles t = trim t := by
  simp only [dropArticle]
  split
  · rfl
  · rename_i a ha
    rw [trim_of_blank (h a (List.mem_of_find?_eq_some ha) (List.find?_some ha))]
    rfl

/-- Behind white space no article is in front. -/
theorem dropArticle_append_left (hw : AreWords articles) (hu : blank u = true) (hn : u ≠ [])
    (t : Text) : dropArticle articles (u ++ t) = trim t := by
  rw [← trim_append_left hu t]
  refine dropArticle_eq_trim fun a ha h => ?_
  obtain ⟨c, u, rfl⟩ := List.exists_cons_of_ne_nil hn
  obtain ⟨b, a, rfl⟩ := List.exists_cons_of_ne_nil (hw.ne_nil a ha)
  have hc : isBlank c = false :=
    hw.not_blank ha (Bool.and_eq_true_iff.mp h).1 (by simp)
  rw [blank, List.all_cons, hc] at hu
  cases hu

theorem opensWith_append (hp : p.length ≤ t.length) (v : Text) :
    opensWith (t ++ v) p = opensWith t p := by
  have hle : p.length ≤ (t ++ v).length := by
    rw [List.length_append]
    omega
  rw [opensWith, opensWith, List.take_append_of_le_length hp, decide_eq_true hp,
    decide_eq_true hle]

/-- An article does not reach into white space behind the phrase. -/
theorem AreWords.length_le (hw : AreWords articles) (ha : a ∈ articles) (hv : blank v = true)
    (h : opensWith (t ++ v) a = true) : a.length ≤ t.length := by
  by_contra hlt
  obtain ⟨k, hk⟩ := Nat.exists_eq_add_of_lt (Nat.lt_of_not_le hlt)
  have hlength := (opensWith_eq_true_iff.mp h).2.1
  obtain ⟨c, v, rfl⟩ : ∃ c v', v = c :: v' := by
    refine List.exists_cons_of_ne_nil fun hn => ?_
    rw [hn, List.append_nil] at hlength
    omega
  have hc : isBlank c = false := by
    refine hw.not_blank ha h ?_
    rw [hk, List.take_append, show t.length + k + 1 - t.length = k + 1 by omega]
    simp
  rw [blank, List.all_cons, hc] at hv
  cases hv

/-- The phrase is nothing but an article. -/
def IsArticle (articles : List Text) (t : Text) : Prop :=
  ∃ a ∈ articles, opensWith t a = true ∧ a.length = t.length

/-- No other word is in front of an article on its own. -/
theorem IsArticle.length_eq (ht : IsArticle articles t) (hw : AreWords articles)
    (hv : blank v = true) (ha : a ∈ articles) (h : hasArticle (t ++ v) a = true) :
    a.length = t.length := by
  obtain ⟨b, hb, hopens, hlength⟩ := ht
  have hle := hw.length_le ha hv (Bool.and_eq_true_iff.mp h).1
  have hopens' : opensWith (t ++ v) b = true := by rwa [opensWith_append hlength.le]
  have hge := hw.length_le_of_hasArticle ha hb h hopens'
  omega

/-- An article on its own stays whole, also with white space behind it. -/
theorem IsArticle.dropArticle_append (ht : IsArticle articles t) (hw : AreWords articles)
    (hv : blank v = true) : dropArticle articles (t ++ v) = trim t := by
  rw [← trim_append_right hv t]
  refine dropArticle_eq_trim fun a ha h => ?_
  rw [ht.length_eq hw hv ha h, List.drop_left]
  exact hv

/-- White space behind a phrase gives it an article only if it is nothing but that. -/
theorem AreWords.hasArticle_append (hw : AreWords articles) (ha : a ∈ articles)
    (hv : blank v = true) (h : opensWith t a = true → a.length ≠ t.length) :
    hasArticle (t ++ v) a = hasArticle t a := by
  rcases Nat.lt_trichotomy a.length t.length with hlt | heq | hgt
  · rw [hasArticle, hasArticle, opensWith_append hlt.le, standsAlone, standsAlone,
      List.drop_append_of_le_length hlt.le, List.drop_eq_getElem_cons hlt]
    rfl
  · have hn : opensWith t a = false := Bool.eq_false_iff.mpr fun ho => h ho heq
    rw [hasArticle, hasArticle, opensWith_append heq.le, hn, Bool.false_and, Bool.false_and]
  · have hn : opensWith t a = false := Bool.eq_false_iff.mpr fun ho => by
      have := (opensWith_eq_true_iff.mp ho).2.1
      omega
    have hn' : opensWith (t ++ v) a = false := Bool.eq_false_iff.mpr fun ho => by
      have := hw.length_le ha hv ho
      omega
    rw [hasArticle, hasArticle, hn, hn', Bool.false_and, Bool.false_and]

/-- White space behind a phrase does not matter for its article. -/
theorem dropArticle_append_right (hw : AreWords articles) (hv : blank v = true) (t : Text) :
    dropArticle articles (t ++ v) = dropArticle articles t := by
  -- With white space behind it, a phrase that is nothing but an article begins with one.
  by_cases ht : IsArticle articles t
  · have h := ht.dropArticle_append hw (v := []) rfl
    rw [List.append_nil] at h
    rw [ht.dropArticle_append hw hv, h]
  · have hfind : (articles.find? fun a => hasArticle (t ++ v) a) =
        articles.find? fun a => hasArticle t a :=
      List.find?_congr fun a ha => hw.hasArticle_append ha hv fun ho he => ht ⟨a, ha, ho, he⟩
    simp only [dropArticle, hfind]
    split
    · exact trim_append_right hv t
    · rename_i a ha
      have hopens : hasArticle t a = true := List.find?_some ha
      have hle := (opensWith_eq_true_iff.mp (Bool.and_eq_true_iff.mp hopens).1).2.1
      rw [List.drop_append_of_le_length hle, trim_append_right hv, trim_append_right hv]

end Text

/-- A phrase and its trimmed form have one key as they stand. -/
theorem plainKey_trim (t : Text) : plainKey (Text.trim t) = plainKey t := by
  rw [plainKey, (Text.trimmed_trim t).trim_eq, plainKey]

namespace Lexicon

variable {t u v : Text}

/-- An article that is taken off is missing in the key. -/
theorem key_eq_plainKey_iff (l : Lexicon) (t : Text) :
    l.key t = plainKey t ↔ Text.dropArticle l.articles t = Text.trim t := by
  constructor
  · intro h
    obtain ⟨w, hw⟩ := Text.dropArticle_suffix l.articles t
    rw [key, plainKey, (Text.trimmed_dropArticle l.articles t).trim_eq, plainKey, ← hw, Text.upper,
      Text.upper, Text.CaseMap.map_append] at h
    have hn : w = [] := by
      by_contra hne
      exact Text.upper_ne_nil hne (List.append_left_eq_self.mp h.symm)
    rwa [hn, List.nil_append] at hw
  · intro h
    rw [key, h, plainKey_trim]

theorem key_append_right (hv : Text.blank v = true) (t : Text) :
    italian.key (t ++ v) = italian.key t := by
  have h := Text.dropArticle_append_right Text.areWords_italian hv t
  rw [key, key]
  exact congrArg plainKey h

theorem key_append_left (hu : Text.blank u = true) (hn : u ≠ []) (t : Text) :
    italian.key (u ++ t) = plainKey t := by
  have h := Text.dropArticle_append_left Text.areWords_italian hu hn t
  rw [key, ← plainKey_trim t]
  exact congrArg plainKey h

/-- The key of a phrase with white space around it: white space in front hides the article. -/
theorem key_padded (hu : Text.blank u = true) (hv : Text.blank v = true) (t : Text) :
    italian.key (u ++ t ++ v) = if u = [] then italian.key t else plainKey t := by
  rw [key_append_right hv]
  split
  · rename_i hn
    rw [hn, List.nil_append]
  · rename_i hn
    exact key_append_left hu hn t

/-- White space around a phrase changes its key where it hides an article. -/
theorem key_padded_iff (hu : Text.blank u = true) (hv : Text.blank v = true) (t : Text) :
    italian.key (u ++ t ++ v) = italian.key t ↔
      u = [] ∨ Text.dropArticle italian.articles t = Text.trim t := by
  rw [key_padded hu hv, ← key_eq_plainKey_iff]
  split
  · rename_i hn
    exact iff_of_true rfl (.inl hn)
  · rename_i hn
    rw [or_iff_right hn, eq_comm]

end Lexicon

end Syllogism
