import Syllogism.Facts.Stored
import Syllogism.Proofs.Json.Printed
import Syllogism.Proofs.Text.Utf8

/-! Facts come back from the file that is written for them. The one thing that keeps facts from
being written is a half in a phrase. -/

namespace Syllogism

namespace Json

theorem mapM_text?_string (ts : List Text) : (ts.map string).mapM text? = some ts := by
  induction ts with
  | nil => rfl
  | cons t ts ih => simp [text?, ih]

theorem texts?_ofTexts (ts : List Text) : (ofTexts ts).texts? = some ts := mapM_text?_string ts

theorem fits_ofTexts {room : Nat} (hr : 0 < room) (ts : List Text) : fits room (ofTexts ts) := by
  refine ⟨hr, ?_⟩
  induction ts with
  | nil => trivial
  | cons t ts ih => exact ⟨trivial, ih⟩

end Json

namespace Facts

theorem entriesOf_ofTexts (entries : List (Text × List Text)) :
    entriesOf (entries.map fun e => (e.1, Json.ofTexts e.2)) = .ok entries := by
  induction entries with
  | nil => rfl
  | cons e entries ih =>
    rw [List.map_cons, entriesOf]
    simp only [Json.texts?_ofTexts, ih]
    rfl

theorem ofJson_toJson (facts : Facts) : ofJson facts.toJson = .ok facts := by
  rw [toJson, ofJson, entriesOf_ofTexts]
  exact congrArg Except.ok (OrderedMap.ofList_entries facts)

/-- Two brackets are open around an attribute, whatever the facts are. -/
theorem fits_toJson (room : Nat) (facts : Facts) : Json.fits (room + 2) facts.toJson := by
  refine ⟨Nat.succ_pos _, ?_, ?_⟩
  · rw [List.map_map]
    exact facts.nodup
  · induction facts.entries with
    | nil => trivial
    | cons e entries ih => exact ⟨Json.fits_ofTexts (Nat.succ_pos room) e.2, ih⟩

theorem ofText_text (room : Nat) (facts : Facts) {space : Text} (hs : Json.IsSpace space) :
    ofText (room + 2) (facts.text ++ space) = .ok facts := by
  rw [ofText, text, Json.read_text (fits_toJson room facts) hs]
  simp only [ofJson_toJson]
  rfl

/-- No half stands in a key or in an attribute. -/
def isWhole (facts : Facts) : Bool := facts.entries.all fun e => e.1.isWhole && e.2.all Text.isWhole

end Facts

namespace Text

variable {half : Fin 0x800}

theorem isWhole_append (s t : Text) : (s ++ t).isWhole = (s.isWhole && t.isWhole) :=
  List.all_append

theorem isWhole_iff_half {t : Text} : t.isWhole = true ↔ ∀ half, .half half ∉ t := by
  rw [isWhole, List.all_eq_true]
  constructor
  · intro h half hm
    cases h _ hm
  · intro h c hc
    cases c with
    | char c => rfl
    | half half => exact absurd hc (h half)

theorem half_notMem_of (s : String) : .half half ∉ Text.of s := by
  simp [Text.of]

theorem half_mem_intercalate {separator : Text} (h : .half half ∉ separator) (ts : List Text) :
    .half half ∈ List.intercalate separator ts ↔ ∃ t ∈ ts, .half half ∈ t := by
  induction ts with
  | nil => simp [List.intercalate]
  | cons t ts ih =>
    cases ts with
    | nil => simp [List.intercalate]
    | cons t' ts =>
      have hi : List.intercalate separator (t :: t' :: ts) =
          t ++ separator ++ List.intercalate separator (t' :: ts) := by
        simp [List.intercalate]
      rw [hi, List.mem_append, List.mem_append, ih, List.exists_mem_cons_iff _ t]
      simp only [h, or_false]

end Text

namespace Json

variable {half : Fin 0x800}

/-! A half in a JSON text is one of a phrase in it -/

theorem half_mem_escape {c : CodePoint} : .half half ∈ escape c ↔ c = .half half := by
  rcases escape_cases c with ⟨e, h, he⟩ | ⟨h, hc⟩ | ⟨h, -⟩
  · cases e with
    | half n => cases he
    | char e =>
      cases c with
      | char c => simp [h]
      | half n =>
        unfold escaped? at he
        split at he <;> cases he
  · cases c with
    | half n => simp [CodePoint.code] at hc; omega
    | char c => simp [h, Text.hex, Text.hexDigit]
  · rw [h, List.mem_singleton, eq_comm]

theorem half_mem_literal {t : Text} : .half half ∈ literal t ↔ .half half ∈ t := by
  simp [literal, half_mem_escape]

theorem half_notMem_margin (level : Nat) : .half half ∉ margin level := by
  simp [margin]

theorem half_mem_block {opening closing : Char} (level : Nat) (ts : List Text) :
    .half half ∈ block opening closing level ts ↔ ∃ t ∈ ts, .half half ∈ t := by
  cases ts with
  | nil => simp [block]
  | cons t ts =>
    have hs : .half half ∉ CodePoint.char ',' :: margin (level + 1) := by
      simp [half_notMem_margin]
    have hi := Text.half_mem_intercalate hs (t :: ts)
    simp [block, half_notMem_margin, hi]

theorem half_mem_ofTexts (level : Nat) (ts : List Text) :
    .half half ∈ textAt level (ofTexts ts) ↔ ∃ t ∈ ts, .half half ∈ t := by
  rw [ofTexts, textAt, half_mem_block]
  induction ts with
  | nil => rfl
  | cons t ts ih =>
    rw [List.map_cons, itemTexts, List.exists_mem_cons_iff, List.exists_mem_cons_iff, ih, textAt,
      half_mem_literal]

end Json

namespace Facts

variable {facts : Facts} {half : Fin 0x800}

theorem half_mem_text (facts : Facts) : .half half ∈ facts.text ↔
    ∃ e ∈ facts.entries, .half half ∈ e.1 ∨ ∃ a ∈ e.2, .half half ∈ a := by
  rw [text, toJson, Json.text, Json.textAt, Json.half_mem_block]
  induction facts.entries with
  | nil => simp [Json.memberTexts]
  | cons e entries ih =>
    rw [List.map_cons, Json.memberTexts, List.exists_mem_cons_iff, List.exists_mem_cons_iff, ih]
    simp [Json.half_mem_literal, Json.half_mem_ofTexts, Text.half_notMem_of]

theorem isWhole_text (facts : Facts) : facts.text.isWhole = facts.isWhole := by
  rw [Bool.eq_iff_iff, isWhole]
  simp only [half_mem_text, List.all_eq_true, Bool.and_eq_true, Text.isWhole_iff_half]
  constructor
  · intro h e he
    refine ⟨fun half hm => h half ⟨e, he, .inl hm⟩, ?_⟩
    exact fun a ha half hm => h half ⟨e, he, .inr ⟨a, ha, hm⟩⟩
  · rintro h half ⟨e, he, hm | ⟨a, ha, hm⟩⟩
    · exact (h e he).1 half hm
    · exact (h e he).2 a ha half hm

/-- Exactly the facts without halves can be written. -/
theorem gap?_eq_none_iff (facts : Facts) : facts.gap? = none ↔ facts.isWhole := by
  rw [gap?, Utf8.gap?_eq_none_iff, isWhole_text]

theorem isWhole_of_isSpace {space : Text} (hs : Json.IsSpace space) : space.isWhole := by
  rw [Text.isWhole, List.all_eq_true]
  intro c hc
  cases c with
  | char c => rfl
  | half n => cases hs _ hc

theorem isWhole_text_append (hw : facts.isWhole) {space : Text} (hs : Json.IsSpace space) :
    (facts.text ++ space).isWhole := by
  rw [Text.isWhole_append, isWhole_text, hw, isWhole_of_isSpace hs]
  rfl

theorem dropMark_bytes (facts : Facts) (rest : Bytes) :
    Utf8.dropMark (facts.bytes ++ rest) = facts.bytes ++ rest := by
  have hb : ∃ t, facts.bytes = 0x7B :: t := by
    cases h : facts.entries with
    | nil => exact ⟨_, by rw [bytes, text, toJson, h]; rfl⟩
    | cons e entries => exact ⟨_, by rw [bytes, text, toJson, h]; rfl⟩
  obtain ⟨t, ht⟩ := hb
  rw [ht]
  rfl

/-- White space may follow the bytes. -/
theorem ofBytes_bytes_append (room : Nat) (hw : facts.isWhole) {space : Text}
    (hs : Json.IsSpace space) : ofBytes (room + 2) (facts.bytes ++ Utf8.encode space) = .ok facts := by
  have ht := isWhole_text_append hw hs
  rw [ofBytes, dropMark_bytes, bytes, ← Utf8.encode_append, Utf8.decode_encode ht]
  exact ofText_text room facts hs

/-- A byte order mark may stand in front, too. -/
theorem ofBytes_mark_bytes_append (room : Nat) (hw : facts.isWhole) {space : Text}
    (hs : Json.IsSpace space) :
    ofBytes (room + 2) (0xEF :: 0xBB :: 0xBF :: (facts.bytes ++ Utf8.encode space)) = .ok facts := by
  have ht := isWhole_text_append hw hs
  rw [ofBytes, Utf8.dropMark, bytes, ← Utf8.encode_append, Utf8.decode_encode ht]
  exact ofText_text room facts hs

/-- What is written to a file is read from it. -/
theorem ofBytes_bytes (room : Nat) (h : facts.gap? = none) :
    ofBytes (room + 2) facts.bytes = .ok facts := by
  have hw := (gap?_eq_none_iff facts).mp h
  have hb := ofBytes_bytes_append room hw Json.isSpace_nil
  rwa [Utf8.encode, List.flatMap_nil, List.append_nil] at hb

/-- The text of facts gives them back, with white space behind it or without, as soon as there is room
for two brackets. The facts have bytes if no half stands in them, and then the bytes give them back,
too. -/
theorem stored_exactly (room : Nat) (facts : Facts) :
    (facts.gap? = none ↔ facts.isWhole) ∧
    ∀ space, Json.IsSpace space →
      ofText (room + 2) (facts.text ++ space) = .ok facts ∧
      (facts.isWhole → ofBytes (room + 2) (facts.bytes ++ Utf8.encode space) = .ok facts ∧
        ofBytes (room + 2) (0xEF :: 0xBB :: 0xBF :: (facts.bytes ++ Utf8.encode space)) =
          .ok facts) := by
  refine ⟨gap?_eq_none_iff facts, ?_⟩
  intro space hs
  refine ⟨ofText_text room facts hs, ?_⟩
  intro hw
  exact ⟨ofBytes_bytes_append room hw hs, ofBytes_mark_bytes_append room hw hs⟩

theorem stored_exactly_quotes :
    let facts : Facts := ⟨[("A", ["say \"\\\" \n", "", "😀"]), ("", [])], by decide⟩
    Json.IsSpace ['\n'] ∧ facts.isWhole ∧
      ofBytes 900 (facts.bytes ++ Utf8.encode ['\n']) = .ok facts := by
  have hs : Json.IsSpace ['\n'] := by simp [Json.IsSpace, Json.isSpace]
  have hw : isWhole ⟨[("A", ["say \"\\\" \n", "", "😀"]), ("", [])], by decide⟩ := by decide
  exact ⟨hs, hw, (((stored_exactly 898 _).2 _ hs).2 hw).1⟩

/-- A half can be read, from an escape, but not be written. -/
theorem half_not_written :
    ∃ facts : Facts, ofText 900 "\x7b\"\\ud83d\": []\x7d" = .ok facts ∧
      facts.gap? = some ⟨5, 0xD83D, 1⟩ :=
  ⟨⟨[([.half 0x3D], [])], by decide⟩, by decide +kernel, by decide +kernel⟩

end Facts

end Syllogism
