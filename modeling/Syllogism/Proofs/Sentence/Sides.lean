import Syllogism.Lexicon.Stored
import Syllogism.Proofs.Except
import Syllogism.Proofs.Sentence.Questions

/-! The two sides of a sentence: which copula parts them, and where. -/

namespace Syllogism

namespace Lexicon

variable {l : Lexicon} {t p before u after : Text}

/-- The text is parted by a form `u` of the copula `p`: it stands behind the first character, as far
to the left as `p` stands there, and no copula earlier in the list stands there anywhere. -/
structure PartedBy (l : Lexicon) (p t before u after : Text) : Prop where
  text : t = before ++ u ++ after
  before_ne : before ≠ []
  copula_ne : p ≠ []
  form : Text.FormOf p u
  first : ∀ i, 1 ≤ i → i < before.length → ¬ Text.StandsAt p i t
  chosen : ∃ earlier later, l.copulas = earlier ++ p :: later ∧
    ∀ q ∈ earlier, ∀ i, 1 ≤ i → ¬ Text.StandsAt q i t

theorem wordsOf_ne_nil {v : Json} {field : String} {words : List Text}
    (h : wordsOf v field = .ok words) : ∀ w ∈ words, w ≠ [] := by
  rw [wordsOf] at h
  split at h
  · split at h
    · rename_i hw
      obtain rfl := Except.ok.inj h
      simpa using hw
    · cases h
  · cases h

/-- A lexicon that was read has no empty copula, so that a copula of it is the first in the list as
soon as no earlier one stands in the text. -/
theorem copulas_ne_nil_of_ofJson {v : Json} (h : ofJson v = .ok l) : ∀ p ∈ l.copulas, p ≠ [] := by
  cases v with
  | object members =>
    simp only [ofJson, bind_eq_ok] at h
    obtain ⟨articles, -, copulas, hc, farewells, -, questions, -, whoWords, -, replies, -, h⟩ := h
    obtain rfl := Except.ok.inj h
    exact wordsOf_ne_nil hc
  | _ => cases h

/-- A copula is passed over if it is empty or stands nowhere behind the first character. -/
theorem passed_iff {q : Text} :
    (!q.isEmpty && (Text.indexFrom? q 1 (t.drop 1)).isSome) = false ↔
      ∀ i, 1 ≤ i → ¬ Text.StandsAt q i t := by
  simp only [Text.standsAt_iff, Bool.and_eq_false_iff, Bool.not_eq_false', List.isEmpty_iff,
    Option.isSome_eq_false_iff, Option.isNone_iff_eq_none, Text.indexFrom?_drop_eq_none_iff]
  by_cases hq : q = [] <;> simp [hq]

theorem copula?_eq_some_iff : l.copula? t = some p ↔
    (p ≠ [] ∧ ∃ i, Text.indexFrom? p 1 (t.drop 1) = some i) ∧
      ∃ earlier later, l.copulas = earlier ++ p :: later ∧
        ∀ q ∈ earlier, ∀ i, 1 ≤ i → ¬ Text.StandsAt q i t := by
  rw [copula?, List.find?_eq_some_iff_append, Bool.and_eq_true, Option.isSome_iff_exists]
  simp only [List.isEmpty_eq_false_iff, Bool.not_eq_eq_eq_not, Bool.not_true, passed_iff]

/-- The search for the copula that parts a text stops where it does so. -/
theorem PartedBy.indexFrom?_eq (h : l.PartedBy p t before u after) :
    Text.indexFrom? p 1 (t.drop 1) = some before.length := by
  have hd : t.drop before.length = u ++ after := by
    rw [h.text, List.append_assoc, List.drop_left]
  refine Text.indexFrom?_drop_eq_some_iff.mpr ⟨?_, ?_, fun j hj hb => ?_⟩
  · exact List.length_pos_iff.mpr h.before_ne
  · rw [hd]
    exact Text.spells_iff.mpr ⟨u, h.form, List.prefix_append u after⟩
  · exact Bool.eq_false_iff.mpr fun hs =>
      h.first j hj hb (Text.standsAt_iff.mpr ⟨h.copula_ne, hs⟩)

/-- What the program takes for the sides of a text that a copula parts. -/
theorem sides?_of_partedBy (h : l.PartedBy p t before u after) : l.sides? t =
    if Text.trim before = [] ∨ Text.trim after = [] then none
    else some (Text.trim before, Text.trim after) := by
  have hc : l.copula? t = some p :=
    copula?_eq_some_iff.mpr ⟨⟨h.copula_ne, _, h.indexFrom?_eq⟩, h.chosen⟩
  have hb : t.take before.length = before := by
    rw [h.text, List.append_assoc, List.take_left]
  have ha : t.drop (before.length + p.length) = after := by
    rw [List.Forall₂.length_eq h.form, ← List.length_append, h.text, List.drop_left]
  rw [sides?_eq, hc, Option.bind_some, h.indexFrom?_eq, Option.bind_some, hb, ha]
  simp only [Bool.or_eq_true, List.isEmpty_iff]

/-- A copula that is found parts the text where the search for it stops. -/
theorem exists_partedBy (h : l.copula? t = some p) :
    ∃ before u after, l.PartedBy p t before u after := by
  obtain ⟨⟨hp, i, hi⟩, hchosen⟩ := copula?_eq_some_iff.mp h
  obtain ⟨h1, hs, hfirst⟩ := Text.indexFrom?_drop_eq_some_iff.mp hi
  have hlength : (t.take i).length = i := by
    have hle := Text.length_le_of_spells hs
    have hpos := List.length_pos_iff.mpr hp
    rw [List.length_drop] at hle
    rw [List.length_take]
    omega
  refine ⟨t.take i, (t.drop i).take p.length, (t.drop i).drop p.length, ?_, ?_, hp,
    Text.spells_iff_take.mp hs, fun j hj hb hstands => ?_, hchosen⟩
  · rw [List.append_assoc, List.take_append_drop, List.take_append_drop]
  · exact List.length_pos_iff.mp (by omega)
  · rw [hlength] at hb
    rw [Text.standsAt_iff, hfirst j hj hb] at hstands
    exact absurd hstands.2 Bool.false_ne_true

/-- A text that has no sides because nothing parts it, or a text with a parting. -/
theorem sides?_cases (l : Lexicon) (t : Text) :
    (l.sides? t = none ∧ ∀ p before u after, ¬ l.PartedBy p t before u after) ∨
      ∃ p before u after, l.PartedBy p t before u after := by
  cases hc : l.copula? t with
  | none =>
    refine .inl ⟨by rw [sides?_eq, hc, Option.bind_none], fun p before u after h => ?_⟩
    rw [copula?_eq_some_iff.mpr ⟨⟨h.copula_ne, _, h.indexFrom?_eq⟩, h.chosen⟩] at hc
    cases hc
  | some p => exact .inr ⟨p, exists_partedBy hc⟩

theorem sides?_eq_some_iff {subject object : Text} : l.sides? t = some (subject, object) ↔
    ∃ p before u after, l.PartedBy p t before u after ∧ subject = Text.trim before ∧
      object = Text.trim after ∧ subject ≠ [] ∧ object ≠ [] := by
  constructor
  · intro h
    obtain ⟨hn, -⟩ | ⟨p, before, u, after, hparted⟩ := sides?_cases l t
    · rw [hn] at h
      cases h
    · rw [sides?_of_partedBy hparted] at h
      split at h
      · cases h
      · rename_i hn
        obtain ⟨rfl, rfl⟩ := Prod.mk.inj (Option.some.inj h)
        obtain ⟨hs, ho⟩ := not_or.mp hn
        exact ⟨p, before, u, after, hparted, rfl, rfl, hs, ho⟩
  · rintro ⟨p, before, u, after, hparted, rfl, rfl, hs, ho⟩
    rw [sides?_of_partedBy hparted, if_neg (not_or.mpr ⟨hs, ho⟩)]

theorem sides?_eq_none_iff : l.sides? t = none ↔
    ∀ p before u after, l.PartedBy p t before u after →
      Text.trim before = [] ∨ Text.trim after = [] := by
  constructor
  · intro h p before u after hparted
    rw [sides?_of_partedBy hparted] at h
    by_contra hn
    rw [if_neg hn] at h
    cases h
  · intro h
    obtain ⟨hn, -⟩ | ⟨p, before, u, after, hparted⟩ := sides?_cases l t
    · exact hn
    · rw [sides?_of_partedBy hparted, if_pos (h p before u after hparted)]

/-- The sides of a text are the trimmed parts at the first place of the first copula, in the order of
the list, that stands behind the first character. There are none where no copula stands there, or
where one of the parts is blank: no later copula and no later place is tried. -/
theorem sides?_exact (l : Lexicon) (t : Text) :
    (∀ subject object, l.sides? t = some (subject, object) ↔
      ∃ p before u after, l.PartedBy p t before u after ∧ subject = Text.trim before ∧
        object = Text.trim after ∧ subject ≠ [] ∧ object ≠ []) ∧
    (l.sides? t = none ↔ ∀ p before u after, l.PartedBy p t before u after →
      Text.trim before = [] ∨ Text.trim after = []) :=
  ⟨fun _ _ => sides?_eq_some_iff, sides?_eq_none_iff⟩

-- The order of the list decides, not the order in the text; a blank side ends the search.
example : italian.sides? "Loro sono qui e' vero" = some (Text.of "Loro sono qui", Text.of "vero") ∧
    italian.sides? "Loro sono qui E' " = none := by
  decide +kernel

end Lexicon

end Syllogism
