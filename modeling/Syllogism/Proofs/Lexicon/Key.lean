import Syllogism.Lexicon.Basic
import Syllogism.Proofs.Text.Upper

/-! Keys: what they stand for when they are taken as phrases. -/

namespace Syllogism

/-- A key as it stands is its own key. -/
theorem plainKey_plainKey (phrase : Text) : plainKey (plainKey phrase) = plainKey phrase := by
  have h : Text.Trimmed (plainKey phrase) := (Text.trimmed_trim phrase).upper
  rw [plainKey, h.trim_eq, plainKey, Text.upper_upper]

namespace Text

variable {articles : List Text} {t : Text}

theorem trimmed_dropArticle (articles : List Text) (t : Text) :
    Trimmed (dropArticle articles t) := by
  simp only [dropArticle]
  split
  · exact trimmed_trim t
  · split
    · exact trimmed_trim t
    · exact trimmed_trim _

theorem dropArticle_ne_nil (h : trim t ≠ []) : dropArticle articles t ≠ [] := by
  simp only [dropArticle]
  split
  · exact h
  · split
    · exact h
    · rename_i hr
      exact fun hn => hr (hn ▸ rfl)

end Text

namespace Lexicon

variable {l : Lexicon} {phrase : Text}

theorem plainKey_key (l : Lexicon) (phrase : Text) : plainKey (l.key phrase) = l.key phrase :=
  plainKey_plainKey _

/-- What has a key is not blank, and neither is the key. -/
theorem key_ne_nil (h : Text.trim phrase ≠ []) : l.key phrase ≠ [] := by
  rw [key, plainKey, (Text.trimmed_dropArticle l.articles phrase).trim_eq]
  exact Text.upper_ne_nil (Text.dropArticle_ne_nil h)

end Lexicon

end Syllogism
