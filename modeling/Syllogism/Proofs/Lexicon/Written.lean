import Syllogism.Lexicon.Stored
import Syllogism.Proofs.Except
import Syllogism.Proofs.Facts.Stored
import Syllogism.Proofs.Json.Exact

/-! A file that facts were written to is no lexicon: it is read as it was written, but a subject has
an array of attributes, and the answers of a lexicon are an object. -/

namespace Syllogism

namespace Json

/-! Lines end with line feeds only -/

theorem return_notMem_hex (width n : Nat) : CodePoint.char '\r' ∉ Text.hex width n := by
  induction width generalizing n with
  | zero => exact List.not_mem_nil
  | succ width ih =>
    rw [Text.hex, List.mem_append, List.mem_singleton]
    rintro (h | h)
    · exact ih _ h
    · have hv := hexValue?_hexDigit n
      rw [← h] at hv
      cases hv

theorem return_notMem_escape (c : CodePoint) : CodePoint.char '\r' ∉ escape c := by
  obtain ⟨e, h, he⟩ | ⟨h, -⟩ | ⟨h, -, -, hc⟩ := escape_cases c
  · rw [h]
    simp only [List.mem_cons, List.not_mem_nil, or_false, not_or]
    refine ⟨by decide, ?_⟩
    rintro rfl
    cases he
  · rw [h]
    simp only [List.mem_cons, not_or]
    exact ⟨by decide, by decide, return_notMem_hex 4 c.code⟩
  · rw [h, List.mem_singleton]
    rintro rfl
    exact absurd hc (by decide)

theorem return_notMem_literal (t : Text) : CodePoint.char '\r' ∉ literal t := by
  simp only [literal, List.mem_cons, List.mem_append, List.mem_flatMap, List.not_mem_nil, or_false,
    not_or, not_exists, not_and]
  exact ⟨by decide, fun c _ => return_notMem_escape c, by decide⟩

theorem return_notMem_margin (level : Nat) : CodePoint.char '\r' ∉ margin level := by
  simp [margin]

theorem return_notMem_intercalate {separator : Text} (hs : CodePoint.char '\r' ∉ separator)
    {ts : List Text} (h : ∀ t ∈ ts, CodePoint.char '\r' ∉ t) :
    CodePoint.char '\r' ∉ List.intercalate separator ts := by
  induction ts with
  | nil => exact List.not_mem_nil
  | cons t ts ih =>
    have ht := h t List.mem_cons_self
    have hts := ih fun t' ht' => h t' (List.mem_cons_of_mem t ht')
    cases ts with
    | nil => rwa [List.intercalate_singleton]
    | cons t' ts =>
      rw [List.intercalate_cons_cons]
      simp only [List.mem_append, not_or]
      exact ⟨⟨ht, hs⟩, hts⟩

theorem return_notMem_block {opening closing : CodePoint} (ho : opening ≠ .char '\r')
    (hc : closing ≠ .char '\r') (level : Nat) {ts : List Text}
    (h : ∀ t ∈ ts, CodePoint.char '\r' ∉ t) :
    CodePoint.char '\r' ∉ block opening closing level ts := by
  cases ts with
  | nil => simp [block, ho.symm, hc.symm]
  | cons t ts =>
    have hs : CodePoint.char '\r' ∉ CodePoint.char ',' :: margin (level + 1) := by
      simp [return_notMem_margin]
    simp only [block, List.mem_append, List.mem_cons, List.not_mem_nil, or_false, not_or]
    exact ⟨⟨⟨⟨ho.symm, return_notMem_margin _⟩, return_notMem_intercalate hs h⟩,
      return_notMem_margin _⟩, hc.symm⟩

theorem return_notMem_ofTexts (level : Nat) (ts : List Text) :
    CodePoint.char '\r' ∉ textAt level (ofTexts ts) := by
  rw [ofTexts, textAt]
  refine return_notMem_block (by decide) (by decide) level ?_
  induction ts with
  | nil => exact fun _ h => absurd h List.not_mem_nil
  | cons t ts ih =>
    rw [List.map_cons, itemTexts, textAt]
    exact List.forall_mem_cons.mpr ⟨return_notMem_literal t, ih⟩

end Json

theorem Facts.return_notMem_text (facts : Facts) : CodePoint.char '\r' ∉ facts.text := by
  rw [text, toJson, Json.text, Json.textAt]
  refine Json.return_notMem_block (by decide) (by decide) 0 ?_
  induction facts.entries with
  | nil => exact fun _ h => absurd h List.not_mem_nil
  | cons e entries ih =>
    rw [List.map_cons, Json.memberTexts]
    refine List.forall_mem_cons.mpr ⟨?_, ih⟩
    simp only [List.mem_append, not_or]
    exact ⟨⟨Json.return_notMem_literal e.1, by decide⟩, Json.return_notMem_ofTexts _ e.2⟩

namespace Lexicon

variable {l : Lexicon} {facts : Facts}

theorem unifyLineEnds_of_notMem {t : Text} (h : CodePoint.char '\r' ∉ t) : unifyLineEnds t = t := by
  fun_induction unifyLineEnds t with
  | case1 => rfl
  | case2 rest ih => exact absurd List.mem_cons_self h
  | case3 rest _ ih => exact absurd List.mem_cons_self h
  | case4 c rest _ _ ih => rw [ih fun hr => h (List.mem_cons_of_mem c hr)]

/-- The answers are an object among the members. -/
theorem exists_replies_of_ofJson {members : List (Text × Json)}
    (h : ofJson (.object members) = .ok l) :
    ∃ replies, OrderedMap.valueIn? (Text.of "responses") members = some (.object replies) := by
  simp only [ofJson] at h
  obtain ⟨_, -, h⟩ := bind_eq_ok.mp h
  obtain ⟨_, -, h⟩ := bind_eq_ok.mp h
  obtain ⟨_, -, h⟩ := bind_eq_ok.mp h
  obtain ⟨_, -, h⟩ := bind_eq_ok.mp h
  obtain ⟨_, -, h⟩ := bind_eq_ok.mp h
  obtain ⟨_, h, -⟩ := bind_eq_ok.mp h
  unfold repliesOf at h
  split at h
  · rename_i replies hr
    exact ⟨replies, hr⟩
  · cases h

theorem ofFile_bytes_ne_ok (room : Nat) (hw : facts.isWhole) (file : Text) :
    ofFile room file facts.bytes ≠ .ok l := by
  intro h
  have ht : facts.text.isWhole := (Facts.isWhole_text facts).trans hw
  have hd : Json.Document facts.text facts.toJson := by
    have hr := Json.read_text (Facts.fits_toJson 0 facts) Json.isSpace_nil
    rw [List.append_nil] at hr
    exact Json.document_of_ok (mapError_eq_ok.mp hr)
  rw [ofFile, Facts.bytes, Utf8.decode_encode ht] at h
  simp only [unifyLineEnds_of_notMem facts.return_notMem_text, Json.read] at h
  obtain hr | ⟨stop, hs, hr⟩ := hd.gets room <;> rw [hr] at h
  · obtain ⟨replies, hm⟩ := exists_replies_of_ofJson (mapError_eq_ok.mp h)
    rw [OrderedMap.valueIn?_map, Option.map_eq_some_iff] at hm
    obtain ⟨attributes, -, he⟩ := hm
    cases he
  · cases stop with
    | fault reason left => cases hs
    | longInteger digits => cases h
    | deepNesting => cases h

end Lexicon

end Syllogism
