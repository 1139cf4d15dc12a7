import Syllogism.Proofs.Json.Exact

/-! The limits of the reader of JSON: it stops for one exactly if the text is JSON up to something
that is beyond it. -/

namespace Syllogism.Json

variable {room : Nat} {t u w : Text} {stop : Stop}

theorem Beyond.isLimit (h : Beyond room u stop) : stop.isLimit = true := by
  induction h with
  | integer | bracket => rfl
  | array _ _ _ ih => exact ih
  | object _ _ _ _ _ _ ih => exact ih

theorem Beyond.opens (h : Beyond room u stop) : Opens u := by
  cases h with
  | integer h => exact h.opens.append _
  | bracket hc rest => rcases hc with rfl | rfl <;> exact ⟨_, _, rfl, by decide⟩
  | array | object => exact ⟨_, _, rfl, by decide⟩

/-! What is beyond a limit stops the reader. -/

section

variable {α : Type} {item : Reader α} {closing : CodePoint} {s : Text}

theorem Finished.imp {p q : Text → α → Prop} (hpq : ∀ t a, p t a → q t a) (h : Finished p s) :
    Finished q s := by
  induction h with
  | none => exact .none
  | more ha hw hw' _ ih => exact .more (hpq _ _ ha) hw hw' ih

theorem Finished.opens_append {stops : Stop → Prop} (h : Finished (Takes stops item) s)
    (hu : Opens u) : Opens (s ++ u) := by
  cases h with
  | none => exact hu
  | more ha hw hw' hs => exact (((ha.opens.append _).append _).append _).append _

theorem itemsFrom_of_finished (hc : Closes closing)
    (hs : Finished (Takes (fun _ => False) item) s) (ho : Opens u) (hu : item u = .error stop)
    {steps : Nat} (hsteps : (s ++ u).length ≤ steps) :
    itemsFrom item closing steps (s ++ u) = .error stop := by
  induction hs generalizing steps with
  | none =>
    obtain ⟨c, rest, rfl, -⟩ := ho
    obtain ⟨steps, rfl⟩ := Nat.exists_eq_add_of_le' (Nat.le_trans (Nat.le_add_left 1 _) hsteps)
    rw [List.nil_append, itemsFrom, hu]
  | @more a t w w' s ha hw hw' hs ih =>
    rw [show t ++ w ++ .char ',' :: w' ++ s ++ u = t ++ (w ++ .char ',' :: (w' ++ (s ++ u))) by
      simp] at hsteps ⊢
    simp only [List.length_append, List.length_cons] at hsteps
    obtain ⟨steps, rfl⟩ := Nat.exists_eq_add_of_le' (show 1 ≤ steps by omega)
    have hr := (ha.reads (w ++ .char ',' :: (w' ++ (s ++ u)))
      (ends_space_append hw (ends_cons (by decide) (by decide) (by decide) (by decide) _))).eq_ok
    have hskip : skip (s ++ u) = s ++ u := by
      simpa using skip_opens (hs.opens_append ho) []
    have hi : itemsFrom item closing steps (s ++ u) = .error stop :=
      ih (by rw [List.length_append]; omega)
    simp only [itemsFrom, hr, skip_append_cons hw (show isSpace ',' = false by decide),
      if_neg hc.ne_comma, if_true, skip_append hw', hskip, hi]
    rfl

theorem items_of_finished (hc : Closes closing) (hw : IsSpace w)
    (hs : Finished (Takes (fun _ => False) item) s) (ho : Opens u) (hu : item u = .error stop) :
    items item closing (w ++ s ++ u) = .error stop := by
  obtain ⟨c, rest, hsu, hspace, hne, hne', -⟩ := hs.opens_append ho
  have hne : ¬ c = closing := by rcases hc with rfl | rfl <;> assumption
  have hi := itemsFrom_of_finished hc hs ho hu (Nat.le_of_eq (congrArg List.length hsu))
  rw [hsu] at hi
  rw [List.append_assoc, hsu, items, skip_append_cons hw hspace]
  simp only [if_neg hne]
  exact hi

end

theorem memberOf_of_error {value : Reader Json} {q name w₁ w₂ : Text} (hq : Quoted q name)
    (hw₁ : IsSpace w₁) (hw₂ : IsSpace w₂) (ho : Opens u) (hu : value u = .error stop) :
    memberOf value (.char '"' :: q ++ .char '"' :: w₁ ++ .char ':' :: w₂ ++ u) = .error stop := by
  have hs := quotes_of_quoted hq ((q ++ .char '"' :: (w₁ ++ .char ':' :: (w₂ ++ u))).length + 1)
    (w₁ ++ .char ':' :: (w₂ ++ u))
  have hskip : skip u = u := by simpa using skip_opens ho []
  rw [show (.char '"' :: q ++ .char '"' :: w₁ ++ .char ':' :: w₂ ++ u : Text) =
    .char '"' :: (q ++ .char '"' :: (w₁ ++ .char ':' :: (w₂ ++ u))) by simp, memberOf]
  simp only [hs, skip_append_cons hw₁ (show isSpace ':' = false by decide), skip_append hw₂, hskip,
    hu]

theorem valueWithin_of_beyond (h : Beyond room u stop) : valueWithin room u = .error stop := by
  induction h with
  | @integer room n t rest h hi hl hr =>
    rw [valueWithin_spelled room h (numeral?_of_integer h hi hr)]
    obtain ⟨hf, -⟩ | ⟨-, -, hv⟩ := numeral_value_cases n
    · exact absurd (hf hi) (Nat.not_le_of_lt hl)
    · rw [hv]
      rfl
  | bracket hc rest => rcases hc with rfl | rfl <;> rfl
  | array hw hs hu ih =>
    have hi := items_of_finished (.inl rfl) hw (hs.imp fun _ _ => takes_within) hu.opens ih
    rw [List.cons_append, List.cons_append, valueWithin, hi]
    rfl
  | @object room w s q name w₁ w₂ u stop hw hs hq hw₁ hw₂ hu ih =>
    have hopens : Opens (.char '"' :: q ++ .char '"' :: w₁ ++ .char ':' :: w₂ ++ u) :=
      ⟨_, _, rfl, by decide⟩
    have hi := items_of_finished (.inr rfl) hw
      (hs.imp fun _ _ hm => Member.takes (hm.imp fun _ _ => takes_within)) hopens
      (memberOf_of_error hq hw₁ hw₂ hu.opens ih)
    rw [List.cons_append, List.cons_append, valueWithin, hi]
    rfl

/-! Where the reader stops for a limit, something is beyond it. -/

section

variable {α : Type} {item : Reader α} {written : Text → α → Prop} {closing : CodePoint}

/-- A limit that is met among items is met at one of them, behind others that are finished. -/
theorem exists_of_itemsFrom (hi : Sound written item) (hs : stop.isLimit = true) {steps : Nat}
    (h : itemsFrom item closing steps t = .error stop) :
    ∃ s u, t = s ++ u ∧ Finished written s ∧ item u = .error stop := by
  induction steps generalizing t with
  | zero =>
    obtain rfl := Except.error.inj h
    cases hs
  | succ steps ih =>
    rw [itemsFrom] at h
    split at h
    · rename_i stop' hitem
      obtain rfl := Except.error.inj h
      exact ⟨[], t, rfl, .none, hitem⟩
    · rename_i a more hitem
      obtain ⟨front, rfl, hfront⟩ := hi _ _ _ hitem
      obtain ⟨w, hw, hmore⟩ := exists_skip more
      split at h
      · obtain rfl := Except.error.inj h
        cases hs
      · rename_i c behind hskip
        rw [hskip] at hmore
        split_ifs at h with hc hcomma
        · obtain ⟨w', hw', hbehind⟩ := exists_skip behind
          obtain ⟨s, u, hsu, hfinished, hu⟩ := ih (map_eq_error.mp h)
          refine ⟨_, u, ?_, .more hfront hw hw' hfinished, hu⟩
          rw [hmore, hcomma, hbehind, hsu]
          simp
        · obtain rfl := Except.error.inj h
          cases hs

theorem exists_of_items (hi : Sound written item) (hs : stop.isLimit = true)
    (h : items item closing t = .error stop) :
    ∃ w s u, t = w ++ s ++ u ∧ IsSpace w ∧ Finished written s ∧ item u = .error stop := by
  obtain ⟨w, hw, ht⟩ := exists_skip t
  rw [items] at h
  split at h
  · rename_i hskip
    obtain ⟨s, u, hsu, hfinished, hu⟩ := exists_of_itemsFrom hi hs h
    exact ⟨w, s, u, by rw [ht, hskip, hsu, List.append_assoc], hw, hfinished, hu⟩
  · rename_i c behind hskip
    split_ifs at h with hc
    obtain ⟨s, u, hsu, hfinished, hu⟩ := exists_of_itemsFrom hi hs h
    exact ⟨w, s, u, by rw [ht, hskip, hsu, List.append_assoc], hw, hfinished, hu⟩

end

theorem exists_of_memberOf {value : Reader Json} (hs : stop.isLimit = true)
    (h : memberOf value t = .error stop) :
    ∃ q name w₁ w₂ u, t = .char '"' :: q ++ .char '"' :: w₁ ++ .char ':' :: w₂ ++ u ∧
      Quoted q name ∧ IsSpace w₁ ∧ IsSpace w₂ ∧ value u = .error stop := by
  unfold memberOf at h
  split at h
  · rename_i t
    split at h
    · rename_i stop' hname
      obtain rfl := Except.error.inj h
      rw [isLimit_of_stringFrom hname] at hs
      cases hs
    · rename_i name more hname
      obtain ⟨q, rfl, hq⟩ := quoted_of_stringFrom hname
      obtain ⟨w₁, hw₁, hmore⟩ := exists_skip more
      split at h
      · rename_i behind hskip
        rw [hskip] at hmore
        obtain ⟨w₂, hw₂, hbehind⟩ := exists_skip behind
        split at h
        · rename_i stop' hvalue
          obtain rfl := Except.error.inj h
          refine ⟨q, name, w₁, w₂, skip behind, ?_, hq, hw₁, hw₂, hvalue⟩
          have hcolon : .char ':' :: behind = .char ':' :: w₂ ++ skip behind :=
            congrArg (List.cons _) hbehind
          rw [hmore, hcolon]
          simp
        · cases h
      · obtain rfl := Except.error.inj h
        cases hs
  · obtain rfl := Except.error.inj h
    cases hs

theorem beyond_of_plain (room : Nat) (hs : stop.isLimit = true) (h : plain u = .error stop) :
    Beyond room u stop := by
  rw [plain] at h
  split at h
  · cases h
  · split at h
    · rename_i n more hn
      obtain ⟨t, rfl, ht⟩ := spelled_of_numeral? hn
      obtain ⟨-, hv⟩ | ⟨hi, hl, hv⟩ := numeral_value_cases n <;> rw [hv] at h
      · cases h
      · obtain rfl := Except.error.inj h
        refine .integer ht hi hl (not_goesOn_of_numeral? hn hi ?_)
        intro h0
        rw [h0] at hl
        exact absurd hl (by decide)
    · obtain rfl := Except.error.inj h
      cases hs

theorem beyond_of_valueWithin (hs : stop.isLimit = true) (h : valueWithin room u = .error stop) :
    Beyond room u stop := by
  have hstring : ∀ {opened : Nat} {t : Text},
      (stringFrom opened t).map (fun p => (string p.1, p.2)) ≠ .error stop := by
    intro opened t h
    rw [isLimit_of_stringFrom (map_eq_error.mp h)] at hs
    cases hs
  induction room generalizing u with
  | zero =>
    rw [valueWithin.eq_def] at h
    dsimp only at h
    split at h
    · exact absurd h hstring
    · obtain rfl := Except.error.inj h
      exact .bracket (.inl rfl) _
    · obtain rfl := Except.error.inj h
      exact .bracket (.inr rfl) _
    · exact beyond_of_plain 0 hs h
  | succ room ih =>
    rw [valueWithin.eq_def] at h
    dsimp only at h
    split at h
    · exact absurd h hstring
    · obtain ⟨w, s, u, rfl, hw, hfinished, hu⟩ :=
        exists_of_items (sound_valueWithin room) hs (map_eq_error.mp h)
      have hb := Beyond.array hw hfinished (ih hu)
      rwa [List.cons_append, List.cons_append] at hb
    · obtain ⟨w, s, u, rfl, hw, hfinished, hu⟩ :=
        exists_of_items (sound_memberOf (sound_valueWithin room)) hs (map_eq_error.mp h)
      obtain ⟨q, name, w₁, w₂, u, rfl, hq, hw₁, hw₂, hu⟩ := exists_of_memberOf hs hu
      have hb := Beyond.object hw hfinished hq hw₁ hw₂ (ih hu)
      rwa [List.cons_append, List.cons_append] at hb
    · exact beyond_of_plain (room + 1) hs h

/-! Documents -/

/-- The reader stops for a limit exactly if the text is JSON up to what is beyond it. -/
theorem document_eq_error_iff :
    document room t = .error stop ∧ stop.isLimit = true ↔ Exceeds room t stop := by
  constructor
  · rintro ⟨h, hs⟩
    rw [document] at h
    split at h
    · obtain rfl := Except.error.inj h
      cases hs
    · split at h
      · rename_i stop' hv
        obtain rfl := Except.error.inj h
        obtain ⟨w, hw, ht⟩ := exists_skip t
        exact ht ▸ .mk hw (beyond_of_valueWithin hs hv)
      · split at h
        · cases h
        · obtain rfl := Except.error.inj h
          cases hs
  · rintro ⟨hw, hu⟩
    have hskip := skip_opens hu.opens []
    rw [List.append_nil] at hskip
    refine ⟨?_, hu.isLimit⟩
    rw [document, if_neg (head?_ne_mark hw hu.opens), skip_append hw, hskip,
      valueWithin_of_beyond hu]

end Syllogism.Json
