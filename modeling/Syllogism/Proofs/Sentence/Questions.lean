import Syllogism.Proofs.Sentence.Told
import Syllogism.Proofs.Text.Marks
import Syllogism.Proofs.Text.Prefix
import Syllogism.Proofs.Text.Search

/-! How questions for a subject and for an object are understood. -/

namespace Syllogism

namespace Lexicon

variable {l : Lexicon} {sentence t p subject object : Text}

/-- The copula that separates the sides of a text, as the lexicon writes it. -/
def copula? (l : Lexicon) (t : Text) : Option Text :=
  l.copulas.find? fun p => !p.isEmpty && (Text.indexFrom? p 1 (t.drop 1)).isSome

/-- The sides of a text are what stands before the copula and what stands behind it. -/
theorem sides?_eq (l : Lexicon) (t : Text) : l.sides? t =
    (l.copula? t).bind fun p => (Text.indexFrom? p 1 (t.drop 1)).bind fun i =>
      let subject := Text.trim (t.take i)
      let object := Text.trim (t.drop (i + p.length))
      if subject.isEmpty || object.isEmpty then none else some (subject, object) := by
  rw [sides?, Text.find?_eq_bind, ← copula?]
  cases l.copula? t with
  | none => rfl
  | some p =>
    rw [Option.bind_some, Option.bind_some]
    cases hi : Text.indexFrom? p 1 (t.drop 1) with
    | none => rfl
    | some i => simp only [Option.map_some, Option.bind_some, Text.length_take_of_indexFrom? hi]

/-- The object is a part of the text, and does not start where the text starts. -/
theorem infix_of_sides? (h : l.sides? t = some (subject, object)) : object <:+: t.drop 1 := by
  rw [sides?_eq] at h
  obtain ⟨p, -, h⟩ := Option.bind_eq_some_iff.mp h
  obtain ⟨i, hi, h⟩ := Option.bind_eq_some_iff.mp h
  have h1 : 1 ≤ i := Text.le_of_indexFrom? hi
  simp only at h
  split at h
  · cases h
  · obtain ⟨-, rfl⟩ := Prod.mk.inj (Option.some.inj h)
    refine (Text.infix_trim _).trans (List.IsSuffix.isInfix ?_)
    exact List.drop_suffix_drop_left t (by omega)

/-- The question for a phrase is understood as that, also if marks close the phrase. -/
theorem reading?_ask (phrase : Text) : italian.reading? (Text.of "COSA SAI SU " ++ phrase) =
    some (.question (Text.stripMarks phrase)) := by
  let command := Text.of "COSA SAI SU"
  let rest := Text.dropEndWhile Text.isClosing (CodePoint.char ' ' :: phrase)
  have ht : Text.stripMarks (command ++ CodePoint.char ' ' :: phrase) = command ++ rest :=
    Text.stripMarks_append (by decide) (by decide) (by decide)
  have hc : Text.of "COSA SAI SU " ++ phrase = command ++ CodePoint.char ' ' :: phrase := rfl
  have hf : italian.farewell? (command ++ rest) = none := by
    rw [farewell?, Text.opening?_append_eq_none (by decide +kernel)]
    rfl
  have ho : Text.opening? italian.questions (command ++ rest) = some command := by
    have hp := Text.opensWith_append_of_apart
      (show Text.Apart (Text.fold "PARLAMI DE") (Text.fold command) by decide +kernel) rest
    have hc := Text.opensWith_append_self (show command ≠ [] by decide) rest
    simp [Text.opening?, italian, hp, hc, command]
  have hr : Text.trim ((command ++ rest).drop command.length) = Text.stripMarks phrase := by
    rw [List.drop_left, Text.trim_dropEndWhile, Text.stripMarks_eq, Text.trimStart_cons_of_blank rfl,
      ← Text.stripMarks_eq]
  rw [hc, reading?, ht, hf, question?, ho, Option.none_or, Option.map_some, hr, Option.some_or]

/-! The question who has an object -/

/-- The question who has an object, through a copula. -/
def askWho (p object : Text) : Text :=
  Text.of "CHI " ++ p ++ Text.of " " ++ object

theorem askWho_eq (p object : Text) :
    askWho p object = Text.of "CHI " ++ (p ++ CodePoint.char ' ' :: object) := by
  simp only [askWho, List.append_assoc]
  rfl

theorem indexFrom?_askWho (hp : p ∈ italian.copulas) (object : Text) :
    Text.indexFrom? p 1 ((askWho p object).drop 1) = some 4 := by
  have hm : ∀ p ∈ italian.copulas, p ≠ [] ∧ Text.Misses p "HI " := by decide +kernel
  have hd : (askWho p object).drop 1 = Text.of "HI " ++ (p ++ CodePoint.char ' ' :: object) := by
    rw [askWho_eq]
    rfl
  have hs := Text.indexFrom?_of_spells (Text.spells_self_append p (CodePoint.char ' ' :: object))
    (n := 4)
  rw [hd, Text.indexFrom?_append (hm p hp).1 (hm p hp).2]
  exact hs

/-- An earlier copula stands nowhere in the question, since it does not stand in the text that the
object is from. -/
theorem copula?_askWho (hp : italian.copula? t = some p) (ho : object <:+: t.drop 1) :
    italian.copula? (askWho p object) = some p := by
  have hm : italian.copulas.Pairwise fun e p =>
      e ≠ [] ∧ Text.Misses e (Text.of "HI " ++ p ++ Text.of " ") := by decide +kernel
  obtain ⟨hfound, before, after, hl, hb⟩ := List.find?_eq_some_iff_append.mp hp
  rw [hl, List.pairwise_append] at hm
  refine List.find?_eq_some_iff_append.mpr ⟨?_, before, after, hl, ?_⟩
  · have hn : p.isEmpty = false := by simp_all
    rw [hn, indexFrom?_askWho (List.mem_of_find?_eq_some hp)]
    rfl
  · intro e he
    obtain ⟨hn, hmiss⟩ := hm.2.2 e he p List.mem_cons_self
    have hnone : Text.indexFrom? e 1 (t.drop 1) = none := by simpa [hn] using hb e he
    have hd : (askWho p object).drop 1 = Text.of "HI " ++ p ++ Text.of " " ++ object := rfl
    rw [hd, Text.indexFrom?_append hn hmiss, Text.indexFrom?_eq_none_of_part ho hnone]
    simp

theorem sides?_askWho (hp : italian.copula? t = some p) (ho : object <:+: t.drop 1)
    (hobject : object.IsPhrase) :
    italian.sides? (askWho p object) = some (Text.of "CHI", object) := by
  have hs : Text.trim ((askWho p object).take 4) = "CHI" := by
    have h4 : (askWho p object).take 4 = Text.of "CHI " := rfl
    rw [h4]
    decide
  have hd : (askWho p object).drop (4 + p.length) = CodePoint.char ' ' :: object := by
    rw [askWho_eq, ← List.drop_drop]
    exact List.drop_left
  have ht : Text.trim (CodePoint.char ' ' :: object) = object := by
    rw [Text.trim, Text.trimStart_cons_of_blank rfl, ← Text.trim, hobject.trimmed.trim_eq]
  have hi := indexFrom?_askWho (List.mem_of_find?_eq_some hp) object
  rw [sides?_eq, copula?_askWho hp ho, Option.bind_some, hi, Option.bind_some]
  simp only [hs, hd, ht]
  simp [hobject.ne_nil, Text.of]

/-- The question ends as its object does, so no mark is behind it. -/
theorem stripMarks_askWho (p : Text) (hobject : object.IsPhrase) :
    Text.stripMarks (askWho p object) = askWho p object := by
  have hlast : (askWho p object).getLast? = object.getLast? :=
    (Text.getLast?_of_suffix (List.suffix_append _ object) hobject.ne_nil).symm
  refine Text.stripMarks_eq_self ⟨?_, ?_⟩ ?_
  · intro c hc
    obtain rfl := Option.some.inj hc
    rfl
  · rw [hlast]
    exact hobject.trimmed.2
  · rw [hlast]
    exact hobject.not_mark

/-- The question who has the object of a statement is understood as that, as its opening is none of
a farewell or another question. -/
theorem reading?_askWho (h : italian.reading? sentence = some (.statement subject object))
    (hp : italian.copula? (Text.stripMarks sentence) = some p) :
    italian.reading? (askWho p object) = some (.whoQuestion "CHI" object) := by
  have hobject := isPhrase_of_statement h
  have hsides := sides?_askWho hp (infix_of_sides? (sides?_of_reading? h)) hobject
  have hf := Text.opening?_append_eq_none (show ∀ f ∈ italian.farewells,
    Text.Apart (Text.fold f) (Text.fold "CHI ") by decide +kernel)
  have hq := Text.opening?_append_eq_none (show ∀ q ∈ italian.questions,
    Text.Apart (Text.fold q) (Text.fold "CHI ") by decide +kernel)
  have hw : Text.opening? italian.whoWords (Text.dropArticle italian.articles "CHI") =
      some (Text.of "CHI") := by decide +kernel
  rw [reading?, stripMarks_askWho p hobject, whoQuestion?, hsides, askWho_eq, farewell?, question?,
    hf, hq]
  simp [hw]

end Lexicon

end Syllogism
