import Syllogism.Proofs.Json.Grammar

/-! What the readers of JSON accept: strings between quotes, items with commas between them, members
with a colon, each with any space around the marks. A text is described by what a reader makes of
it in front of any other text, so that descriptions can be put together. The descriptions leave open
for which reasons a reader may stop before it is through. -/

namespace Syllogism.Json

/-- Nothing at the front of the text could belong to a number before it. -/
def Ends (t : Text) : Prop :=
  ∀ c ∈ t.head?, isFigure c = false ∧ c ≠ '.' ∧ c ≠ 'e' ∧ c ≠ 'E'

/-- The text starts with a mark of its own: no space, no closing bracket, no byte order mark. -/
def Opens (t : Text) : Prop :=
  ∃ c rest, t = c :: rest ∧ isSpace c = false ∧ c ≠ ']' ∧ c ≠ '\x7d' ∧ c ≠ '\uFEFF'

/-- The result, or a stop for one of the reasons. -/
def Gets {β : Type} (stops : Stop → Prop) (result : Except Stop β) (b : β) : Prop :=
  result = .ok b ∨ ∃ s, stops s ∧ result = .error s

/-- In front of a text that leaves a number at its end, the reader takes all of `t` for `a`. -/
def Reads {α : Type} (stops : Stop → Prop) (r : Reader α) (t : Text) (a : α) : Prop :=
  ∀ rest, Ends rest → Gets stops (r (t ++ rest)) (a, rest)

/-- The text opens a value of its own, which the reader takes it for. -/
structure Takes {α : Type} (stops : Stop → Prop) (r : Reader α) (t : Text) (a : α) : Prop where
  reads : Reads stops r t a
  opens : Opens t

/-- Between quotes, `s` is read as `t`. -/
def Quotes (s t : Text) : Prop :=
  ∀ opened rest, stringFrom opened (s ++ .char '"' :: rest) = .ok (t, rest)

variable {stops : Stop → Prop}

theorem Gets.eq_ok {β : Type} {result : Except Stop β} {b : β}
    (h : Gets (fun _ => False) result b) : result = .ok b := by
  obtain h | ⟨s, hs, -⟩ := h
  · exact h
  · exact hs.elim

theorem Gets.map {β γ : Type} {result : Except Stop β} {b : β} (f : β → γ)
    (h : Gets stops result b) : Gets stops (result.map f) (f b) := by
  obtain rfl | ⟨s, hs, rfl⟩ := h
  · exact .inl rfl
  · exact .inr ⟨s, hs, rfl⟩

theorem isSpace_nil : IsSpace [] := by simp [IsSpace]

theorem skip_append {w : Text} (hw : IsSpace w) (t : Text) : skip (w ++ t) = skip t :=
  List.dropWhile_append_of_pos hw

theorem skip_cons {c : CodePoint} (hc : isSpace c = false) (t : Text) : skip (c :: t) = c :: t :=
  List.dropWhile_cons_of_neg (by simp [hc])

theorem skip_append_cons {w : Text} (hw : IsSpace w) {c : CodePoint} (hc : isSpace c = false)
    (t : Text) : skip (w ++ c :: t) = c :: t := by
  rw [skip_append hw, skip_cons hc]

theorem skip_opens {t : Text} (ht : Opens t) (rest : Text) : skip (t ++ rest) = t ++ rest := by
  obtain ⟨c, t, rfl, hc, -⟩ := ht
  exact skip_cons hc (t ++ rest)

theorem Opens.append {t : Text} (ht : Opens t) (s : Text) : Opens (t ++ s) := by
  obtain ⟨c, t, rfl, hc⟩ := ht
  exact ⟨c, t ++ s, rfl, hc⟩

theorem ends_nil : Ends [] := by simp [Ends]

theorem ends_cons {c : CodePoint} (hf : isFigure c = false) (hp : c ≠ '.') (he : c ≠ 'e')
    (hE : c ≠ 'E') (t : Text) : Ends (c :: t) := by
  intro c' hc'
  obtain rfl : c = c' := by simpa using hc'
  exact ⟨hf, hp, he, hE⟩

theorem ends_space_append {w t : Text} (hw : IsSpace w) (ht : Ends t) : Ends (w ++ t) := by
  cases w with
  | nil => exact ht
  | cons c w =>
    have hc := hw c (by simp)
    simp only [isSpace, Bool.or_eq_true, beq_iff_eq] at hc
    rcases hc with ((rfl | rfl) | rfl) | rfl <;>
      exact ends_cons (by decide) (by decide) (by decide) (by decide) _

/-! Strings -/

theorem stringFrom_cons {c : CodePoint} (hq : c ≠ '"') (hb : c ≠ '\\') (hc : 0x20 ≤ c.code)
    (opened : Nat) (rest : Text) :
    stringFrom opened (c :: rest) = prepend c (stringFrom opened rest) := by
  rw [stringFrom]
  · rw [if_neg (by omega)]
  · rintro rfl; exact hq rfl
  · rintro rfl; exact hb rfl

theorem stringFrom_escaped {e c : CodePoint} (he : escaped? e = some c) (opened : Nat)
    (rest : Text) :
    stringFrom opened (.char '\\' :: e :: rest) = prepend c (stringFrom opened rest) := by
  rw [stringFrom]
  · simp only [he]
  · rintro rfl
    simp [escaped?] at he

theorem code?_eq_some {a b c d : CodePoint} {rest : Text} (hr : rest ≠ []) :
    code? (.char '\\' :: .char 'u' :: a :: b :: c :: d :: rest) = some (unit? a b c d) := by
  obtain ⟨x, rest, rfl⟩ := List.exists_cons_of_ne_nil hr
  rfl

theorem code?_eq_some_iff {t : Text} {n : Option Nat} :
    code? t = some n ↔ ∃ a b c d rest, t = .char '\\' :: .char 'u' :: a :: b :: c :: d :: rest ∧
      rest ≠ [] ∧ unit? a b c d = n := by
  constructor
  · intro h
    unfold code? at h
    split at h
    · rename_i a b c d x rest
      exact ⟨a, b, c, d, x :: rest, rfl, by simp, Option.some.inj h⟩
    · cases h
  · rintro ⟨a, b, c, d, rest, rfl, hr, rfl⟩
    exact code?_eq_some hr

/-- The escape of one number, where the number is not the first half of a pair. -/
theorem stringFrom_code {a b c d : CodePoint} {n : Nat} (hn : unit? a b c d = some n)
    (opened : Nat) {rest : Text} (hr : rest ≠ [])
    (hl : isHighHalf n = true → ∀ low, code? rest = some low → ∃ m, low = some m ∧ isLowHalf m = false) :
    stringFrom opened (.char '\\' :: .char 'u' :: a :: b :: c :: d :: rest) =
      prepend (.ofCode n) (stringFrom opened rest) := by
  have hc : code? (.char '\\' :: .char 'u' :: a :: b :: c :: d :: rest) = some (some n) :=
    (code?_eq_some hr).trans (congrArg some hn)
  rw [stringFrom]
  simp only [hc, List.drop_succ_cons, List.drop_zero]
  by_cases hh : isHighHalf n = true
  · rw [if_pos hh]
    cases hlow : code? rest with
    | none => rfl
    | some low =>
      obtain ⟨m, rfl, hm⟩ := hl hh low hlow
      simp [hm]
  · rw [if_neg hh]

/-- The escapes of the two halves of a pair. -/
theorem stringFrom_pair {a b c d a' b' c' d' : CodePoint} {high low : Nat}
    (hn : unit? a b c d = some high) (hh : isHighHalf high = true)
    (hn' : unit? a' b' c' d' = some low) (hl : isLowHalf low = true) (opened : Nat) {rest : Text}
    (hr : rest ≠ []) :
    stringFrom opened (.char '\\' :: .char 'u' :: a :: b :: c :: d ::
        .char '\\' :: .char 'u' :: a' :: b' :: c' :: d' :: rest) =
      prepend (joinHalves high low) (stringFrom opened rest) := by
  have hc : code? (.char '\\' :: .char 'u' :: a :: b :: c :: d ::
      .char '\\' :: .char 'u' :: a' :: b' :: c' :: d' :: rest) = some (some high) :=
    (code?_eq_some (by simp)).trans (congrArg some hn)
  have hc' : code? (.char '\\' :: .char 'u' :: a' :: b' :: c' :: d' :: rest) = some (some low) :=
    (code?_eq_some hr).trans (congrArg some hn')
  rw [stringFrom]
  simp only [hc, List.drop_succ_cons, List.drop_zero, if_pos hh, hc', if_pos hl]

theorem quotes_nil : Quotes [] [] := by
  intro opened rest
  rw [List.nil_append, stringFrom]

theorem reads_string (room : Nat) {s t : Text} (h : Quotes s t) :
    Reads stops (valueWithin room) (.char '"' :: (s ++ [.char '"'])) (string t) := by
  intro rest _
  have hs := h ((s ++ .char '"' :: rest).length + 1) rest
  rw [List.cons_append, List.append_assoc, List.singleton_append]
  exact .inl (by cases room <;> rw [valueWithin, hs] <;> rfl)

/-- Words and numbers have no mark of their own in front. -/
theorem valueWithin_eq_plain (room : Nat) {t : Text}
    (h : ∀ c ∈ t.head?, c ≠ '"' ∧ c ≠ '[' ∧ c ≠ '\x7b') : valueWithin room t = plain t := by
  cases room with
  | zero | succ =>
    rw [valueWithin]
    · rintro rest rfl; exact (h _ rfl).1 rfl
    · rintro rest rfl; exact (h _ rfl).2.1 rfl
    · rintro rest rfl; exact (h _ rfl).2.2 rfl

/-! Items -/

section

variable {α : Type} {item : Reader α} {closing : CodePoint} {as : List α} {t : Text}

theorem Items.imp {p q : Text → α → Prop} (hpq : ∀ t a, p t a → q t a)
    (h : Items p closing as t) : Items q closing as t := by
  induction h with
  | last ha hw => exact .last (hpq _ _ ha) hw
  | more ha hw hw' has ih => exact .more (hpq _ _ ha) hw hw' ih

theorem Listed.imp {p q : Text → α → Prop} (hpq : ∀ t a, p t a → q t a)
    (h : Listed p closing as t) : Listed q closing as t := by
  cases h with
  | empty hw => exact .empty hw
  | items hw has => exact .items hw (has.imp hpq)

theorem Items.opens (h : Items (Takes stops item) closing as t) : Opens t := by
  cases h with
  | last ha hw => exact (ha.opens.append _).append _
  | more ha hw hw' has => exact (ha.opens.append _ |>.append _).append _

theorem Items.length_le {p : Text → α → Prop} (h : Items p closing as t) :
    as.length ≤ t.length := by
  induction h with
  | last ha hw =>
    simp only [List.length_append, List.length_singleton]
    omega
  | more ha hw hw' has ih =>
    simp only [List.length_cons, List.length_append]
    omega

/-- The brackets that close. -/
def Closes (c : CodePoint) : Prop := c = ']' ∨ c = '\x7d'

theorem Closes.isSpace_eq (h : Closes closing) : isSpace closing = false := by
  rcases h with rfl | rfl <;> decide

theorem Closes.ne_comma (h : Closes closing) : ¬ (.char ',' : CodePoint) = closing := by
  rcases h with rfl | rfl <;> decide

theorem Closes.ends (h : Closes closing) (t : Text) : Ends (closing :: t) := by
  rcases h with rfl | rfl <;> exact ends_cons (by decide) (by decide) (by decide) (by decide) t

theorem itemsFrom_items (hc : Closes closing) (h : Items (Takes stops item) closing as t)
    {steps : Nat} (hs : as.length ≤ steps) (rest : Text) :
    Gets stops (itemsFrom item closing steps (t ++ rest)) (as, rest) := by
  induction h generalizing steps with
  | @last a t w ha hw =>
    obtain ⟨steps, rfl⟩ := Nat.exists_eq_add_of_le' hs
    rw [List.append_assoc, List.append_assoc, List.singleton_append]
    obtain hr | ⟨s, hs, hr⟩ :=
      ha.reads (w ++ closing :: rest) (ends_space_append hw (hc.ends rest))
    · refine .inl ?_
      simp only [List.length_singleton, itemsFrom, hr, skip_append_cons hw hc.isSpace_eq, if_true]
    · refine .inr ⟨s, hs, ?_⟩
      simp only [List.length_singleton, itemsFrom, hr]
  | @more a as t w w' s ha hw hw' has ih =>
    obtain ⟨steps, rfl⟩ := Nat.exists_eq_add_of_le' hs
    have hi := ih (show as.length ≤ steps + as.length by omega)
    rw [show t ++ w ++ .char ',' :: w' ++ s ++ rest =
      t ++ (w ++ .char ',' :: (w' ++ (s ++ rest))) by simp]
    obtain hr | ⟨s, hs, hr⟩ := ha.reads (w ++ .char ',' :: (w' ++ (s ++ rest)))
      (ends_space_append hw (ends_cons (by decide) (by decide) (by decide) (by decide) _))
    · simp only [List.length_cons, ← Nat.add_assoc, itemsFrom, hr,
        skip_append_cons hw (show isSpace ',' = false by decide), if_neg hc.ne_comma, if_true,
        skip_append hw', skip_opens has.opens]
      exact hi.map fun p => (a :: p.1, p.2)
    · refine .inr ⟨s, hs, ?_⟩
      simp only [List.length_cons, ← Nat.add_assoc, itemsFrom, hr]

theorem items_listed (hc : Closes closing) (h : Listed (Takes stops item) closing as t)
    (rest : Text) : Gets stops (items item closing (t ++ rest)) (as, rest) := by
  cases h with
  | empty hw =>
    rw [items, List.append_assoc, List.singleton_append, skip_append_cons hw hc.isSpace_eq]
    exact .inl (if_pos rfl)
  | @items _ w t hw has =>
    obtain ⟨c, s, rfl, hspace, hne, hne', -⟩ := has.opens
    have hne : ¬ c = closing := by rcases hc with rfl | rfl <;> assumption
    have hs : as.length ≤ (s ++ rest).length + 1 := by
      have := has.length_le
      simp only [List.length_cons, List.length_append] at this ⊢
      omega
    rw [items, List.append_assoc, List.cons_append, skip_append_cons hw hspace]
    simp only [if_neg hne]
    exact itemsFrom_items hc has hs rest

end

theorem takes_array {room : Nat} {vs : List Json} {t : Text}
    (h : Listed (Takes stops (valueWithin room)) ']' vs t) :
    Takes stops (valueWithin (room + 1)) (.char '[' :: t) (array vs) := by
  refine ⟨fun rest _ => ?_, _, _, rfl, by decide⟩
  rw [List.cons_append, valueWithin]
  exact (items_listed (.inl rfl) h rest).map fun p => (array p.1, p.2)

theorem takes_object {room : Nat} {members : List (Text × Json)} {t : Text}
    (h : Listed (Takes stops (memberOf (valueWithin room))) '\x7d' members t) :
    Takes stops (valueWithin (room + 1)) (.char '\x7b' :: t)
      (object (OrderedMap.settle members)) := by
  refine ⟨fun rest _ => ?_, _, _, rfl, by decide⟩
  rw [List.cons_append, valueWithin]
  exact (items_listed (.inr rfl) h rest).map fun p => (object (OrderedMap.settle p.1), p.2)

theorem takes_member {value : Reader Json} {s name w w' t : Text} {v : Json} (hs : Quotes s name)
    (hw : IsSpace w) (hw' : IsSpace w') (hv : Takes stops value t v) :
    Takes stops (memberOf value) (.char '"' :: s ++ .char '"' :: w ++ .char ':' :: w' ++ t)
      (name, v) := by
  refine ⟨fun rest hr => ?_, _, _, rfl, by decide⟩
  have hq := hs ((s ++ .char '"' :: (w ++ .char ':' :: (w' ++ (t ++ rest)))).length + 1)
    (w ++ .char ':' :: (w' ++ (t ++ rest)))
  rw [show (.char '"' :: s ++ .char '"' :: w ++ .char ':' :: w' ++ t ++ rest : Text) =
    .char '"' :: (s ++ .char '"' :: (w ++ .char ':' :: (w' ++ (t ++ rest)))) by simp, memberOf]
  simp only [hq, skip_append_cons hw (show isSpace ':' = false by decide), skip_append hw',
    skip_opens hv.opens]
  obtain h | ⟨stop, hstop, h⟩ := hv.reads rest hr
  · exact .inl (by rw [h])
  · exact .inr ⟨stop, hstop, by rw [h]⟩

theorem head?_ne_mark {w t : Text} (hw : IsSpace w) (ho : Opens t) :
    (w ++ t).head? ≠ some '\uFEFF' := by
  cases w with
  | nil =>
    obtain ⟨c, t, rfl, -, -, -, hne⟩ := ho
    exact fun h => hne (Option.some.inj h)
  | cons c w =>
    intro h
    have hc := hw c (by simp)
    rw [Option.some.inj h] at hc
    exact absurd hc (by decide)

/-- A text with one value and any space around it. -/
theorem document_takes {room : Nat} {w t w' : Text} {v : Json} (hw : IsSpace w)
    (hw' : IsSpace w') (hv : Takes stops (valueWithin room) t v) :
    Gets stops (document room (w ++ t ++ w')) v := by
  have hend : Ends w' := by simpa using ends_space_append hw' ends_nil
  have hskip : skip w' = [] := by simpa [skip] using skip_append hw' []
  have hmark := head?_ne_mark hw (hv.opens.append w')
  rw [List.append_assoc, document, if_neg hmark, skip_append hw, skip_opens hv.opens]
  obtain h | ⟨s, hs, h⟩ := hv.reads w' hend
  · exact .inl (by simp only [h, hskip])
  · exact .inr ⟨s, hs, by rw [h]⟩

end Syllogism.Json
