import Syllogism.Proofs.Json.Numerals
import Syllogism.Proofs.Json.Strings
import Syllogism.Proofs.OrderedMap
import Mathlib.Tactic.SplitIfs

/-! The reader of JSON against the grammar: what it accepts is written for the value it gives and
within the limits, and what is written for a value is read as that value, unless the reader meets one
of its limits. -/

namespace Syllogism.Json

/-- What the reader takes off the front of a text is written for the value that it gives. -/
def Sound {α : Type} (written : Text → α → Prop) (r : Reader α) : Prop :=
  ∀ u a rest, r u = .ok (a, rest) → ∃ t, u = t ++ rest ∧ written t a

theorem exists_skip (t : Text) : ∃ w, IsSpace w ∧ t = w ++ skip t :=
  ⟨t.takeWhile isSpace, fun c hc => List.all_eq_true.mp List.all_takeWhile c hc,
    List.takeWhile_append_dropWhile.symm⟩

/-! Items -/

section

variable {α : Type} {item : Reader α} {written : Text → α → Prop} {closing : CodePoint}

theorem sound_itemsFrom (hi : Sound written item) (steps : Nat) :
    Sound (fun t as => Items written closing as t) (itemsFrom item closing steps) := by
  induction steps with
  | zero => intro u as rest h; cases h
  | succ steps ih =>
    intro u as rest h
    rw [itemsFrom] at h
    split at h
    · cases h
    · rename_i a more hitem
      obtain ⟨t, rfl, ht⟩ := hi _ _ _ hitem
      obtain ⟨w, hw, hmore⟩ := exists_skip more
      split at h
      · cases h
      · rename_i c behind hskip
        rw [hskip] at hmore
        split_ifs at h with hc hcomma
        · obtain ⟨rfl, rfl⟩ := Prod.mk.inj (Except.ok.inj h)
          exact ⟨t ++ w ++ [closing], by rw [hmore, hc]; simp, .last ht hw⟩
        · obtain ⟨as', rfl, hr⟩ := exists_of_prepend h
          obtain ⟨w', hw', hbehind⟩ := exists_skip behind
          obtain ⟨s, hs, has⟩ := ih _ _ _ hr
          exact ⟨t ++ w ++ .char ',' :: w' ++ s, by rw [hmore, hcomma, hbehind, hs]; simp,
            .more ht hw hw' has⟩
        · cases h

theorem sound_items (hi : Sound written item) :
    Sound (fun t as => Listed written closing as t) (items item closing) := by
  intro u as rest h
  obtain ⟨w, hw, hu⟩ := exists_skip u
  rw [items] at h
  split at h
  · rename_i hskip
    rw [hskip] at hu
    obtain ⟨t, ht, has⟩ := sound_itemsFrom hi 1 _ _ _ h
    exact ⟨w ++ t, by rw [hu, List.append_assoc, ← ht], .items hw has⟩
  · rename_i c behind hskip
    rw [hskip] at hu
    split_ifs at h with hc
    · obtain ⟨rfl, rfl⟩ := Prod.mk.inj (Except.ok.inj h)
      exact ⟨w ++ [closing], by rw [hu, hc]; simp, .empty hw⟩
    · obtain ⟨t, ht, has⟩ := sound_itemsFrom hi _ _ _ _ h
      exact ⟨w ++ t, by rw [hu, List.append_assoc, ← ht], .items hw has⟩

end

theorem sound_memberOf {value : Reader Json} {written : Text → Json → Prop}
    (hv : Sound written value) : Sound (Member written) (memberOf value) := by
  intro u a rest h
  unfold memberOf at h
  split at h
  · rename_i u
    split at h
    · cases h
    · rename_i name more hname
      obtain ⟨s, rfl, hs⟩ := quoted_of_stringFrom hname
      obtain ⟨w, hw, hmore⟩ := exists_skip more
      split at h
      · rename_i behind hskip
        rw [hskip] at hmore
        obtain ⟨w', hw', hbehind⟩ := exists_skip behind
        split at h
        · cases h
        · rename_i v last hvalue
          obtain ⟨rfl, rfl⟩ := Prod.mk.inj (Except.ok.inj h)
          obtain ⟨t, ht, hwritten⟩ := hv _ _ _ hvalue
          refine ⟨_, ?_, .mk hs hw hw' hwritten⟩
          rw [hmore, hbehind, ht]
          simp
      · cases h
  · cases h

/-! Values -/

theorem resolves_settle (pairs : List (Text × Json)) :
    Resolves pairs (OrderedMap.settle pairs) :=
  ⟨OrderedMap.keys_settle pairs, fun name => OrderedMap.valueIn?_settle name pairs⟩

theorem Resolves.eq_settle {pairs members : List (Text × Json)} (h : Resolves pairs members) :
    members = OrderedMap.settle pairs := by
  have hs := resolves_settle pairs
  refine (OrderedMap.ext_valueIn? (hs.1.trans h.1.symm) (OrderedMap.nodup_settle pairs) ?_).symm
  intro name
  rw [hs.2, h.2]

theorem sound_plain (brackets : Text → Json → Prop) : Sound (Layer Numeral.Fits brackets) plain := by
  intro u v rest h
  rw [plain] at h
  split at h
  · rename_i w hw
    obtain ⟨rfl, rfl⟩ := Prod.mk.inj (Except.ok.inj h)
    have hp := List.find?_some hw
    exact ⟨w.1, (List.prefix_iff_eq_append.mp (List.isPrefixOf_iff_prefix.mp hp)).symm,
      .word (List.mem_of_find?_eq_some hw)⟩
  · split at h
    · rename_i n more hn
      obtain ⟨t, rfl, ht⟩ := spelled_of_numeral? hn
      obtain ⟨hf, hv⟩ | ⟨-, -, hv⟩ := numeral_value_cases n <;> rw [hv] at h
      · obtain ⟨rfl, rfl⟩ := Prod.mk.inj (Except.ok.inj h)
        exact ⟨t, rfl, .number ht hf⟩
      · cases h
    · cases h

/-- What the reader takes for a string is one. -/
theorem sound_string {brackets : Text → Json → Prop} {opened : Nat} {u rest : Text} {v : Json}
    (h : (stringFrom opened u).map (fun p => (string p.1, p.2)) = .ok (v, rest)) :
    ∃ t, .char '"' :: u = t ++ rest ∧ Layer Numeral.Fits brackets t v := by
  obtain ⟨p, hs, hp⟩ := map_eq_ok.mp h
  obtain ⟨rfl, rfl⟩ := Prod.mk.inj hp
  obtain ⟨s, rfl, hq⟩ := quoted_of_stringFrom hs
  exact ⟨.char '"' :: (s ++ [.char '"']), by simp, .string hq⟩

theorem sound_valueWithin (room : Nat) : Sound (Within room) (valueWithin room) := by
  induction room with
  | zero =>
    intro u v rest h
    rw [valueWithin.eq_def] at h
    dsimp only at h
    split at h
    · exact sound_string h
    · cases h
    · cases h
    · exact sound_plain _ _ _ _ h
  | succ room ih =>
    intro u v rest h
    rw [valueWithin.eq_def] at h
    dsimp only at h
    split at h
    · exact sound_string h
    · rename_i more
      obtain ⟨p, hi, hp⟩ := map_eq_ok.mp h
      obtain ⟨rfl, rfl⟩ := Prod.mk.inj hp
      obtain ⟨t, rfl, ht⟩ := sound_items ih _ _ _ hi
      exact ⟨.char '[' :: t, rfl, .brackets (.array ht)⟩
    · rename_i more
      obtain ⟨p, hi, hp⟩ := map_eq_ok.mp h
      obtain ⟨rfl, rfl⟩ := Prod.mk.inj hp
      obtain ⟨t, rfl, ht⟩ := sound_items (sound_memberOf ih) _ _ _ hi
      exact ⟨.char '\x7b' :: t, rfl, .brackets (.object ht (resolves_settle _))⟩
    · exact sound_plain _ _ _ _ h

theorem Layer.imp {p q : Numeral → Prop} {b c : Text → Json → Prop} {t : Text} {v : Json}
    (hp : ∀ n, p n → q n) (hb : ∀ t v, b t v → c t v) (h : Layer p b t v) : Layer q c t v := by
  cases h with
  | word h => exact .word h
  | number h ha => exact .number h (hp _ ha)
  | string h => exact .string h
  | brackets h => exact .brackets (hb _ _ h)

theorem Member.imp {p q : Text → Json → Prop} {t : Text} {m : Text × Json}
    (hpq : ∀ t v, p t v → q t v) (h : Member p t m) : Member q t m := by
  cases h with
  | mk hs hw hw' hv => exact .mk hs hw hw' (hpq _ _ hv)

theorem Bracketed.imp {p q : Text → Json → Prop} {t : Text} {v : Json}
    (hpq : ∀ t v, p t v → q t v) (h : Bracketed p t v) : Bracketed q t v := by
  cases h with
  | array h => exact .array (h.imp hpq)
  | object h hr => exact .object (h.imp fun _ _ hm => hm.imp hpq) hr

/-- Within the limits or not, the text stands for its value. -/
theorem Within.written {room : Nat} {t : Text} {v : Json} (h : Within room t v) :
    Written (room + 1) t v := by
  induction room generalizing t v with
  | zero => exact Layer.imp (fun _ _ => trivial) (fun _ _ hf => hf.elim) h
  | succ room ih => exact Layer.imp (fun _ _ => trivial) (fun _ _ hb => hb.imp fun _ _ => ih) h

section

variable {stops : Stop → Prop} {room : Nat} {t : Text} {v : Json}

/-- A layer of values is taken if its numbers and what is in brackets are. -/
theorem takes_layer {allowed : Numeral → Prop} {brackets : Text → Json → Prop}
    (ha : ∀ n, allowed n → Gets stops n.value n.meaning)
    (hb : ∀ t v, brackets t v → Takes stops (valueWithin room) t v)
    (h : Layer allowed brackets t v) : Takes stops (valueWithin room) t v := by
  cases h with
  | word h => exact takes_word room h
  | number h hn => exact takes_number room h (ha _ hn)
  | string h => exact ⟨reads_string room (quotes_of_quoted h), _, _, rfl, by decide⟩
  | brackets h => exact hb _ _ h

theorem Member.takes {value : Reader Json} {m : Text × Json} (h : Member (Takes stops value) t m) :
    Takes stops (memberOf value) t m := by
  cases h with
  | mk hs hw hw' hv => exact takes_member (quotes_of_quoted hs) hw hw' hv

theorem takes_bracketed (h : Bracketed (Takes stops (valueWithin room)) t v) :
    Takes stops (valueWithin (room + 1)) t v := by
  cases h with
  | array h => exact takes_array h
  | object h hr =>
    rw [hr.eq_settle]
    exact takes_object (h.imp fun _ _ hm => hm.takes)

/-- A value within the limits is read. -/
theorem takes_within (h : Within room t v) : Takes (fun _ => False) (valueWithin room) t v := by
  have hfits : ∀ n : Numeral, n.Fits → Gets (fun _ => False) n.value n.meaning := by
    intro n hf
    obtain ⟨-, hv⟩ | ⟨hi, hl, -⟩ := numeral_value_cases n
    · exact .inl hv
    · exact absurd (hf hi) (Nat.not_le_of_lt hl)
  induction room generalizing t v with
  | zero => exact takes_layer hfits (fun _ _ hf => hf.elim) h
  | succ room ih => exact takes_layer hfits (fun _ _ hb => takes_bracketed (hb.imp fun _ _ => ih)) h

/-- A value that is written is read, unless one of its numbers is too long or one of its brackets
too deep. -/
theorem takes_written {layers : Nat} (h : Written layers t v) (room : Nat) :
    Takes (fun s => s.isLimit = true) (valueWithin room) t v := by
  have hnumber : ∀ n : Numeral, Gets (fun s => s.isLimit = true) n.value n.meaning := by
    intro n
    obtain ⟨-, hv⟩ | ⟨-, -, hv⟩ := numeral_value_cases n
    · exact .inl hv
    · exact .inr ⟨_, rfl, hv⟩
  induction layers generalizing t v room with
  | zero => exact h.elim
  | succ layers ih =>
    refine takes_layer (fun n _ => hnumber n) (fun t v hb => ?_) h
    cases room with
    | succ room => exact takes_bracketed (hb.imp fun _ _ hv => ih hv room)
    | zero =>
      cases hb with
      | array _ => exact ⟨fun rest _ => .inr ⟨.deepNesting, rfl, rfl⟩, _, _, rfl, by decide⟩
      | object _ _ => exact ⟨fun rest _ => .inr ⟨.deepNesting, rfl, rfl⟩, _, _, rfl, by decide⟩

end

/-! Documents -/

theorem document_of_ok {room : Nat} {t : Text} {v : Json} (h : document room t = .ok v) :
    Document t v := by
  rw [document] at h
  split at h
  · cases h
  · split at h
    · cases h
    · rename_i v' rest hv
      obtain ⟨w, hw, ht⟩ := exists_skip t
      obtain ⟨s, hs, hwithin⟩ := sound_valueWithin room _ _ _ hv
      obtain ⟨w', hw', hrest⟩ := exists_skip rest
      split at h
      · rename_i hskip
        obtain rfl := Except.ok.inj h
        have hall : t = w ++ s ++ w' := by
          rw [ht, hs, hrest, hskip]
          simp
        exact hall ▸ .mk hw hw' hwithin.written
      · cases h

theorem Document.gets {t : Text} {v : Json} (h : Document t v) (room : Nat) :
    Gets (fun s => s.isLimit = true) (document room t) v := by
  cases h with
  | mk hw hw' hv => exact document_takes hw hw' (takes_written hv room)

theorem Document.head?_ne_mark {t : Text} {v : Json} (h : Document t v) :
    t.head? ≠ some '\uFEFF' := by
  cases h with
  | @mk w t w' v layers hw hw' hv =>
    rw [List.append_assoc]
    exact Json.head?_ne_mark hw ((takes_written hv 0).opens.append w')

end Syllogism.Json
