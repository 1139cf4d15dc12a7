import Syllogism.Proofs.Json.Strings
import Syllogism.Proofs.Text.Upper
import Syllogism.Proofs.Text.Utf8

/-! Strings in ASCII. A character can be written in several ways: as it is, by its escape of one
letter, by its code in hexadecimal digits, or by the codes of two halves. The reader takes each of
them for the character. -/

namespace Syllogism

theorem CodePoint.code_lt (c : CodePoint) : c.code < 0x110000 := by
  cases c with
  | char c =>
    have h := c.valid
    simp only [UInt32.isValidChar, Nat.isValidChar] at h
    show c.val.toNat < 0x110000
    omega
  | half n =>
    have := n.isLt
    simp only [CodePoint.code]
    omega

/-- Every character is one of the first 128. -/
def Text.IsAscii (t : Text) : Prop := ∀ c ∈ t, c.code < 0x80

namespace Text

variable {s t : Text} {c : CodePoint}

@[simp]
theorem isAscii_nil : IsAscii [] := by simp [IsAscii]

@[simp]
theorem isAscii_cons : IsAscii (c :: t) ↔ c.code < 0x80 ∧ IsAscii t := by simp [IsAscii]

@[simp]
theorem isAscii_append : IsAscii (s ++ t) ↔ IsAscii s ∧ IsAscii t := by
  simp [IsAscii, or_imp, forall_and]

/-- No half is among the first 128. -/
theorem IsAscii.isWhole (h : IsAscii t) : t.isWhole := by
  rw [Text.isWhole, List.all_eq_true]
  intro c hc
  cases c with
  | char c => rfl
  | half n =>
    have hlt := h _ hc
    simp only [CodePoint.code] at hlt
    omega

end Text

namespace Json

/-! How a character is written -/

/-- The digit stands for the number, in either case. -/
inductive HexDigit : CodePoint → Nat → Prop
  | figure {n : Nat} (hn : n < 10) : HexDigit (.ofCode (0x30 + n)) n
  | small {n : Nat} (hn : n < 6) : HexDigit (.ofCode (0x61 + n)) (10 + n)
  | capital {n : Nat} (hn : n < 6) : HexDigit (.ofCode (0x41 + n)) (10 + n)

/-- Four digits stand for the number. -/
inductive HexDigits : Text → Nat → Prop
  | mk {a b c d : CodePoint} {k l m n : Nat} (ha : HexDigit a k) (hb : HexDigit b l)
      (hc : HexDigit c m) (hd : HexDigit d n) :
      HexDigits [a, b, c, d] (((k * 16 + l) * 16 + m) * 16 + n)

/-- The letters of the short escapes, each with the character that it stands for. -/
def shortEscapes : List (CodePoint × CodePoint) :=
  [('"', '"'), ('\\', '\\'), ('/', '/'), ('b', '\x08'), ('f', '\x0c'), ('n', '\n'), ('r', '\r'),
    ('t', '\t')]

/-- A way to write a character in ASCII: as it is if it is printable, by its short escape, by its
code, or, past the first 65536, by the codes of its halves. -/
inductive AsciiForm : Text → CodePoint → Prop
  | literal {c : CodePoint} (hc : 0x20 ≤ c.code) (hc' : c.code ≤ 0x7E) (hq : c ≠ '"')
      (hb : c ≠ '\\') : AsciiForm [c] c
  | short {e c : CodePoint} (he : (e, c) ∈ shortEscapes) : AsciiForm [.char '\\', e] c
  | code {c : CodePoint} {digits : Text} (hc : c.isHalf = false) (hd : HexDigits digits c.code) :
      AsciiForm (.char '\\' :: .char 'u' :: digits) c
  | pair {c : CodePoint} {high low : Text} (hc : 0x10000 ≤ c.code)
      (hh : HexDigits high (0xD800 + (c.code - 0x10000) / 0x400))
      (hl : HexDigits low (0xDC00 + (c.code - 0x10000) % 0x400)) :
      AsciiForm (.char '\\' :: .char 'u' :: high ++ .char '\\' :: .char 'u' :: low) c

/-- Between quotes, `s` stands for `t`. -/
inductive AsciiString : (s t : Text) → Prop
  | nil : AsciiString [] []
  | cons {form s t : Text} {c : CodePoint} (hc : AsciiForm form c) (hs : AsciiString s t) :
      AsciiString (form ++ s) (c :: t)

/-- With its quotes. -/
inductive AsciiLiteral : Text → Text → Prop
  | mk {s t : Text} (hs : AsciiString s t) : AsciiLiteral (.char '"' :: (s ++ [.char '"'])) t

/-- Printable characters can stand as they are. -/
theorem asciiString_of_printable {t : Text}
    (h : ∀ c ∈ t, (0x20 ≤ c.code ∧ c.code ≤ 0x7E) ∧ c ≠ '"' ∧ c ≠ '\\') : AsciiString t t := by
  induction t with
  | nil => exact .nil
  | cons c t ih =>
    obtain ⟨⟨hc, hc'⟩, hq, hb⟩ := h c List.mem_cons_self
    exact .cons (.literal hc hc' hq hb) (ih fun c' hc' => h c' (List.mem_cons_of_mem c hc'))

/-! All of it is ASCII -/

theorem HexDigit.code_lt {c : CodePoint} {n : Nat} (h : HexDigit c n) : c.code < 0x80 := by
  cases h with
  | figure hn | small hn | capital hn =>
    rw [CodePoint.code_ofCode (by omega)]
    omega

theorem HexDigits.isAscii {t : Text} {n : Nat} (h : HexDigits t n) : t.IsAscii := by
  cases h with
  | mk ha hb hc hd => simp [ha.code_lt, hb.code_lt, hc.code_lt, hd.code_lt]

theorem AsciiForm.isAscii {t : Text} {c : CodePoint} (h : AsciiForm t c) : t.IsAscii := by
  have hback : CodePoint.code '\\' < 0x80 := by decide
  have hu : CodePoint.code 'u' < 0x80 := by decide
  cases h with
  | literal hc hc' => simpa using (by omega : c.code < 0x80)
  | short he =>
    have hlt : ∀ p ∈ shortEscapes, p.1.code < 0x80 := by decide
    simp [hback, hlt _ he]
  | code hc hd => simp [hback, hu, hd.isAscii]
  | pair hc hh hl => simp [hback, hu, hh.isAscii, hl.isAscii]

theorem AsciiString.isAscii {s t : Text} (h : AsciiString s t) : s.IsAscii := by
  induction h with
  | nil => simp
  | cons hc hs ih => simp [hc.isAscii, ih]

theorem AsciiLiteral.isAscii {s t : Text} (h : AsciiLiteral s t) : s.IsAscii := by
  have hquote : CodePoint.code '"' < 0x80 := by decide
  cases h with
  | mk hs => simp [hquote, hs.isAscii]

theorem IsSpace.isAscii {w : Text} (h : IsSpace w) : w.IsAscii := by
  intro c hc
  have hs := h c hc
  simp only [isSpace, Bool.or_eq_true, beq_iff_eq] at hs
  rcases hs with ((rfl | rfl) | rfl) | rfl <;> decide

section

variable {α β : Type} {p : Text → α → Prop} {q : Text → β → Prop} {closing : CodePoint}
  {as : List α} {t : Text}

theorem Items.isAscii (hclosing : closing.code < 0x80) (hp : ∀ t a, p t a → t.IsAscii)
    (h : Items p closing as t) : t.IsAscii := by
  have hcomma : CodePoint.code ',' < 0x80 := by decide
  induction h with
  | last ha hw => simp [hp _ _ ha, hw.isAscii, hclosing]
  | more ha hw hw' has ih => simp [hp _ _ ha, hw.isAscii, hcomma, hw'.isAscii, ih]

theorem Listed.isAscii (hclosing : closing.code < 0x80) (hp : ∀ t a, p t a → t.IsAscii)
    (h : Listed p closing as t) : t.IsAscii := by
  cases h with
  | empty hw => simp [hw.isAscii, hclosing]
  | items hw has => simp [hw.isAscii, has.isAscii hclosing hp]

/-! The same list, with its items taken for something else -/

theorem Items.map (f : α → β) (hf : ∀ t a, p t a → q t (f a)) (h : Items p closing as t) :
    Items q closing (as.map f) t := by
  induction h with
  | last ha hw => exact .last (hf _ _ ha) hw
  | more ha hw hw' has ih => exact .more (hf _ _ ha) hw hw' ih

theorem Listed.map (f : α → β) (hf : ∀ t a, p t a → q t (f a)) (h : Listed p closing as t) :
    Listed q closing (as.map f) t := by
  cases h with
  | empty hw => exact .empty hw
  | items hw has => exact .items hw (has.map f hf)

/-! A list can be written if each of its items can -/

theorem Items.exists_of_mem (h : Items p closing as t) : ∀ a ∈ as, ∃ s, p s a := by
  induction h with
  | last ha hw => simpa using ⟨_, ha⟩
  | more ha hw hw' has ih => exact List.forall_mem_cons.mpr ⟨⟨_, ha⟩, ih⟩

theorem exists_items {a : α} (closing : CodePoint) (h : ∀ b ∈ a :: as, ∃ s, p s b) :
    ∃ t, Items p closing (a :: as) t := by
  induction as generalizing a with
  | nil =>
    obtain ⟨s, hs⟩ := h a List.mem_cons_self
    exact ⟨_, .last hs isSpace_nil⟩
  | cons b as ih =>
    obtain ⟨⟨s, hs⟩, hrest⟩ := List.forall_mem_cons.mp h
    obtain ⟨t, ht⟩ := ih hrest
    exact ⟨_, .more hs isSpace_nil isSpace_nil ht⟩

theorem exists_listed_iff (closing : CodePoint) :
    (∃ t, Listed p closing as t) ↔ ∀ a ∈ as, ∃ s, p s a := by
  constructor
  · rintro ⟨t, ht⟩
    cases ht with
    | empty hw => simp
    | items hw has => exact has.exists_of_mem
  · intro h
    cases as with
    | nil => exact ⟨_, .empty isSpace_nil⟩
    | cons a as =>
      obtain ⟨t, ht⟩ := exists_items closing h
      exact ⟨_, .items isSpace_nil ht⟩

end

/-! The reader -/

theorem HexDigit.hexValue?_eq {c : CodePoint} {n : Nat} (h : HexDigit c n) :
    hexValue? c = some n := by
  cases h with
  | figure hn =>
    rw [hexValue?, CodePoint.code_ofCode (by omega), if_pos (by omega)]
    congr 1
    omega
  | small hn =>
    rw [hexValue?, CodePoint.code_ofCode (by omega), if_neg (by omega), if_pos (by omega)]
    congr 1
    omega
  | capital hn =>
    rw [hexValue?, CodePoint.code_ofCode (by omega), if_neg (by omega), if_neg (by omega),
      if_pos (by omega)]
    congr 1
    omega

theorem HexDigits.exists_unit? {t : Text} {n : Nat} (h : HexDigits t n) :
    ∃ a b c d, t = [a, b, c, d] ∧ unit? a b c d = some n := by
  cases h with
  | mk ha hb hc hd =>
    refine ⟨_, _, _, _, rfl, ?_⟩
    simp only [unit?, ha.hexValue?_eq, hb.hexValue?_eq, hc.hexValue?_eq, hd.hexValue?_eq]
    congr 1
    omega

theorem escaped?_of_mem {e c : CodePoint} (h : (e, c) ∈ shortEscapes) : escaped? e = some c := by
  have hall : ∀ p ∈ shortEscapes, escaped? p.1 = some p.2 := by decide
  exact hall _ h

theorem isHighHalf_code {c : CodePoint} (hc : c.isHalf = false) : isHighHalf c.code = false := by
  cases c with
  | char c =>
    have := CodePoint.code_char_lt_or_le c
    simp only [isHighHalf, Bool.and_eq_false_iff, decide_eq_false_iff_not]
    omega
  | half n => cases hc

/-- The halves of a character make it up again. -/
theorem joinHalves_halves {c : CodePoint} (hc : 0x10000 ≤ c.code) :
    joinHalves (0xD800 + (c.code - 0x10000) / 0x400) (0xDC00 + (c.code - 0x10000) % 0x400) = c := by
  generalize hn : c.code = n at hc
  rw [joinHalves, show 0x10000 + (0xD800 + (n - 0x10000) / 0x400 - 0xD800) * 0x400 +
    (0xDC00 + (n - 0x10000) % 0x400 - 0xDC00) = n by omega, ← hn, CodePoint.ofCode_code]

/-- In front of what spells a text, a form of a character spells the text with the character in
front. A character is no half, so it does not join what follows. -/
theorem AsciiForm.quoted_append {form s t : Text} {c : CodePoint} (hc : AsciiForm form c)
    (hs : Quoted s t) : Quoted (form ++ s) (c :: t) := by
  cases hc with
  | literal hc hc' hq hb => exact .plain hq hb hc hs
  | short he => exact .escaped (escaped?_of_mem he) hs
  | code hc hd =>
    obtain ⟨a, b, c', d, rfl, hn⟩ := hd.exists_unit?
    have hq := Quoted.code hn (fun hh => by rw [isHighHalf_code hc] at hh; cases hh) hs
    rwa [CodePoint.ofCode_code] at hq
  | pair hc hh hl =>
    have hlt := c.code_lt
    obtain ⟨a, b, c', d, rfl, hn⟩ := hh.exists_unit?
    obtain ⟨a', b', c'', d', rfl, hn'⟩ := hl.exists_unit?
    have hhigh : isHighHalf (0xD800 + (c.code - 0x10000) / 0x400) = true := by
      simp only [isHighHalf, Bool.and_eq_true, decide_eq_true_eq]
      omega
    have hlow : isLowHalf (0xDC00 + (c.code - 0x10000) % 0x400) = true := by
      simp only [isLowHalf, Bool.and_eq_true, decide_eq_true_eq]
      omega
    have hq := Quoted.pair hn hhigh hn' hlow hs
    rwa [joinHalves_halves hc] at hq

theorem AsciiString.quoted {s t : Text} (h : AsciiString s t) : Quoted s t := by
  induction h with
  | nil => exact .nil
  | cons hc hs ih => exact hc.quoted_append ih

theorem AsciiLiteral.takes {stops : Stop → Prop} (room : Nat) {s t : Text}
    (h : AsciiLiteral s t) : Takes stops (valueWithin room) s (string t) := by
  cases h with
  | mk hs => exact ⟨reads_string room (quotes_of_quoted hs.quoted), _, _, rfl, by decide⟩

/-! Exactly the texts without halves can be written -/

theorem exists_hexDigit {n : Nat} (hn : n < 16) : ∃ c, HexDigit c n := by
  by_cases h : n < 10
  · exact ⟨_, .figure h⟩
  · obtain ⟨m, rfl⟩ := Nat.exists_eq_add_of_le (Nat.le_of_not_lt h)
    exact ⟨_, .small (by omega)⟩

theorem exists_hexDigits {n : Nat} (hn : n < 0x10000) : ∃ t, HexDigits t n := by
  obtain ⟨a, ha⟩ := exists_hexDigit (show n / 0x1000 < 16 by omega)
  obtain ⟨b, hb⟩ := exists_hexDigit (show n / 0x100 % 16 < 16 by omega)
  obtain ⟨c, hc⟩ := exists_hexDigit (show n / 0x10 % 16 < 16 by omega)
  obtain ⟨d, hd⟩ := exists_hexDigit (show n % 16 < 16 by omega)
  have h := HexDigits.mk ha hb hc hd
  have hdigits : ((n / 0x1000 * 16 + n / 0x100 % 16) * 16 + n / 0x10 % 16) * 16 + n % 16 = n := by
    omega
  rw [hdigits] at h
  exact ⟨_, h⟩

theorem exists_asciiForm {c : CodePoint} (hc : c.isHalf = false) : ∃ form, AsciiForm form c := by
  have hlt := c.code_lt
  by_cases hcode : c.code < 0x10000
  · obtain ⟨digits, hd⟩ := exists_hexDigits hcode
    exact ⟨_, .code hc hd⟩
  · obtain ⟨high, hh⟩ := exists_hexDigits
      (show 0xD800 + (c.code - 0x10000) / 0x400 < 0x10000 by omega)
    obtain ⟨low, hl⟩ := exists_hexDigits
      (show 0xDC00 + (c.code - 0x10000) % 0x400 < 0x10000 by omega)
    exact ⟨_, .pair (by omega) hh hl⟩

theorem AsciiForm.isHalf_eq {form : Text} {c : CodePoint} (h : AsciiForm form c) :
    c.isHalf = false := by
  cases c with
  | char c => rfl
  | half n =>
    have hle : 0xD800 ≤ (CodePoint.half n).code := Nat.le_add_right _ _
    have hlt : (CodePoint.half n).code < 0x10000 := by
      have := n.isLt
      simp only [CodePoint.code]
      omega
    cases h with
    | literal hc hc' => omega
    | short he =>
      have hall : ∀ p ∈ shortEscapes, p.2.isHalf = false := by decide
      exact hall _ he
    | code hc hd => exact hc
    | pair hc hh hl => omega

theorem exists_asciiString_iff {t : Text} : (∃ s, AsciiString s t) ↔ t.isWhole := by
  rw [Text.isWhole, List.all_eq_true]
  constructor
  · rintro ⟨s, hs⟩
    induction hs with
    | nil => simp
    | cons hc hs ih => simpa [hc.isHalf_eq] using ih
  · intro h
    induction t with
    | nil => exact ⟨[], .nil⟩
    | cons c t ih =>
      obtain ⟨s, hs⟩ := ih fun c' hc' => h c' (List.mem_cons_of_mem c hc')
      obtain ⟨form, hform⟩ := exists_asciiForm (by simpa using h c List.mem_cons_self)
      exact ⟨form ++ s, .cons hform hs⟩

theorem exists_asciiLiteral_iff {t : Text} : (∃ s, AsciiLiteral s t) ↔ t.isWhole := by
  rw [← exists_asciiString_iff]
  constructor
  · rintro ⟨_, ⟨hs⟩⟩
    exact ⟨_, hs⟩
  · rintro ⟨s, hs⟩
    exact ⟨_, .mk hs⟩

end Json

end Syllogism
