import Syllogism.Proofs.Json.Integers
import Syllogism.Proofs.OrderedMap
import Mathlib.Data.List.Forall2

/-! What is printed is read back: every value without decimals, within the limits of the reader, and
with any space around it. -/

namespace Syllogism.Json

variable {stops : Stop → Prop}

/-- A character is escaped by one other, by its code, or stands for itself. -/
theorem escape_cases (c : CodePoint) :
    (∃ e, escape c = [.char '\\', e] ∧ escaped? e = some c) ∨
    (escape c = .char '\\' :: .char 'u' :: Text.hex 4 c.code ∧ c.code < 0x20) ∨
    (escape c = [c] ∧ c ≠ '"' ∧ c ≠ '\\' ∧ 0x20 ≤ c.code) := by
  unfold escape
  split_ifs with hquote hback hn hr ht hb hf hcontrol
  any_goals
    subst c
    exact .inl ⟨_, rfl, rfl⟩
  · exact .inr (.inl ⟨rfl, hcontrol⟩)
  · exact .inr (.inr ⟨rfl, hquote, hback, by omega⟩)

theorem hexValue?_hexDigit (n : Nat) : hexValue? (Text.hexDigit n) = some (n % 16) := by
  have h : ∀ m < 16, hexValue? (.char (Nat.digitChar m)) = some m := by decide
  exact h (n % 16) (Nat.mod_lt n (by omega))

theorem unit?_hexDigit {n : Nat} (h : n < 0x10000) :
    unit? (Text.hexDigit (n / 16 / 16 / 16)) (Text.hexDigit (n / 16 / 16))
      (Text.hexDigit (n / 16)) (Text.hexDigit n) = some n := by
  simp only [unit?, hexValue?_hexDigit]
  congr 1
  omega

theorem stringFrom_escape (c : CodePoint) (opened : Nat) {rest : Text} (hr : rest ≠ []) :
    stringFrom opened (escape c ++ rest) = prepend c (stringFrom opened rest) := by
  rcases escape_cases c with ⟨e, h, he⟩ | ⟨h, hc⟩ | ⟨h, hquote, hback, hc⟩
  · rw [h]
    exact stringFrom_escaped he opened rest
  · have hlow : isHighHalf c.code = false := by
      simp only [isHighHalf, Bool.and_eq_false_iff, decide_eq_false_iff_not]
      omega
    have hs := stringFrom_code (unit?_hexDigit (show c.code < 0x10000 by omega)) opened hr
      (by simp [hlow])
    rw [CodePoint.ofCode_code] at hs
    rw [h]
    exact hs
  · rw [h]
    exact stringFrom_cons hquote hback hc opened rest

theorem quotes_escape (t : Text) : Quotes (t.flatMap escape) t := by
  induction t with
  | nil => exact quotes_nil
  | cons c t ih =>
    intro opened rest
    rw [List.flatMap_cons, List.append_assoc, stringFrom_escape c opened (by simp), ih opened rest]
    rfl

theorem isSpace_margin (level : Nat) : IsSpace (margin level) := by
  intro c hc
  rcases List.mem_cons.mp hc with rfl | hc
  · rfl
  · rw [(List.mem_replicate.mp hc).2]
    rfl

theorem items_intercalate {α : Type} {item : Text → α → Prop} {closing : CodePoint} {w w' : Text}
    (hw : IsSpace w) (hw' : IsSpace w') {t : Text} {ts : List Text} {a : α} {as : List α}
    (h : List.Forall₂ item (t :: ts) (a :: as)) :
    Items item closing (a :: as)
      (List.intercalate (.char ',' :: w) (t :: ts) ++ w' ++ [closing]) := by
  induction ts generalizing t a as with
  | nil =>
    obtain ⟨ha, hs⟩ := List.forall₂_cons.mp h
    obtain rfl := List.forall₂_nil_left_iff.mp hs
    simpa [List.intercalate] using Items.last ha hw'
  | cons t' ts ih =>
    obtain ⟨ha, hs⟩ := List.forall₂_cons.mp h
    obtain ⟨a', as, ha', has, rfl⟩ := List.forall₂_cons_left_iff.mp hs
    simpa [List.intercalate] using
      Items.more (w := []) ha isSpace_nil hw (ih (.cons ha' has))

theorem listed_block {α : Type} {item : Text → α → Prop} (opening closing : CodePoint) (level : Nat)
    {ts : List Text} {as : List α} (h : List.Forall₂ item ts as) :
    ∃ t, block opening closing level ts = opening :: t ∧ Listed item closing as t := by
  cases h with
  | nil => exact ⟨[closing], rfl, Listed.empty isSpace_nil⟩
  | @cons t a ts as ha has =>
    refine ⟨_, ?_, Listed.items (isSpace_margin (level + 1))
      (items_intercalate (isSpace_margin (level + 1)) (isSpace_margin level) (.cons ha has))⟩
    simp [block]

mutual

/-- Within the limits of the reader: no decimals, integers with no more than `digitLimit` digits,
each name of an object once, and at most `room` brackets open at one place. -/
def fits (room : Nat) : Json → Prop
  | integer i => (Text.ofNat i.natAbs).length ≤ digitLimit
  | decimal _ => False
  | array items => 0 < room ∧ itemsFit (room - 1) items
  | object members =>
    0 < room ∧ (members.map Prod.fst).Nodup ∧ membersFit (room - 1) members
  | _ => True

def itemsFit (room : Nat) : List Json → Prop
  | [] => True
  | v :: rest => fits room v ∧ itemsFit room rest

def membersFit (room : Nat) : List (Text × Json) → Prop
  | [] => True
  | (_, v) :: rest => fits room v ∧ membersFit room rest

end

theorem takes_literal (room : Nat) (t : Text) :
    Takes stops (valueWithin room) (literal t) (string t) :=
  ⟨reads_string room (quotes_escape t), _, _, rfl, by decide⟩

theorem takes_memberText {value : Reader Json} (name : Text) {t : Text} {v : Json}
    (h : Takes stops value t v) :
    Takes stops (memberOf value) (literal name ++ Text.of ": " ++ t) (name, v) := by
  have hw : IsSpace [.char ' '] := by simp [IsSpace, isSpace]
  have hr := takes_member (quotes_escape name) isSpace_nil hw h
  simpa [literal, Text.of] using hr

mutual

/-- A value that fits is read from what is printed for it. -/
theorem takes_textAt : (v : Json) → (level room : Nat) → fits room v →
    Takes stops (valueWithin room) (textAt level v) v
  | null, _, room, _ => takes_word room (by simp [words, textAt])
  | bool true, _, room, _ => takes_word room (by simp [words, textAt])
  | bool false, _, room, _ => takes_word room (by simp [words, textAt])
  | integer i, _, room, h => takes_integer room h
  | string t, _, room, _ => takes_literal room t
  | array items, level, room, h => by
    obtain ⟨room, rfl⟩ : ∃ r, room = r + 1 := ⟨room - 1, by have := h.1; omega⟩
    obtain ⟨t, ht, hl⟩ := listed_block '[' ']' level (takes_itemTexts items (level + 1) room h.2)
    rw [textAt, ht]
    exact takes_array hl
  | object members, level, room, h => by
    obtain ⟨room, rfl⟩ : ∃ r, room = r + 1 := ⟨room - 1, by have := h.1; omega⟩
    obtain ⟨t, ht, hl⟩ := listed_block '\x7b' '\x7d' level
      (takes_memberTexts members (level + 1) room h.2.2)
    have hr := takes_object hl
    rw [OrderedMap.settle_of_nodup h.2.1] at hr
    rw [textAt, ht]
    exact hr

theorem takes_itemTexts : (vs : List Json) → (level room : Nat) → itemsFit room vs →
    List.Forall₂ (Takes stops (valueWithin room)) (itemTexts level vs) vs
  | [], _, _, _ => .nil
  | v :: vs, level, room, h =>
    .cons (takes_textAt v level room h.1) (takes_itemTexts vs level room h.2)

theorem takes_memberTexts : (ms : List (Text × Json)) → (level room : Nat) →
    membersFit room ms →
    List.Forall₂ (Takes stops (memberOf (valueWithin room))) (memberTexts level ms) ms
  | [], _, _, _ => .nil
  | (name, v) :: ms, level, room, h =>
    .cons (takes_memberText name (takes_textAt v level room h.1))
      (takes_memberTexts ms level room h.2)

end

/-- The text of a value is read as this value, also with space behind it. -/
theorem read_text {room : Nat} {v : Json} (h : fits room v) {w : Text} (hw : IsSpace w) :
    read room (v.text ++ w) = .ok v := by
  have hv : Gets (fun _ => False) (document room ([] ++ textAt 0 v ++ w)) v :=
    document_takes isSpace_nil hw (takes_textAt v 0 room h)
  rw [read, text, ← List.nil_append (textAt 0 v), hv.eq_ok]
  rfl

end Syllogism.Json
