import Syllogism.Proofs.Facts.Stored
import Syllogism.Proofs.Json.Ascii
import Syllogism.Proofs.Text.Decoded

/-! Facts from files in ASCII, with escapes of every kind and space between any two marks, as they
were written before the format was fixed to UTF-8 with an indentation. -/

namespace Syllogism.Facts

variable {facts : Facts} {t : Text} {e : Text × List Text}

/-- A subject in quotes, a colon and the array of its attributes. -/
inductive AsciiEntry : Text → Text × List Text → Prop
  | mk {s subject w w' t : Text} {attributes : List Text} (hs : Json.AsciiString s subject)
      (hw : Json.IsSpace w) (hw' : Json.IsSpace w')
      (ha : Json.Listed Json.AsciiLiteral ']' attributes t) :
      AsciiEntry (.char '"' :: s ++ .char '"' :: w ++ .char ':' :: w' ++ .char '[' :: t)
        (subject, attributes)

/-- The object with these facts and no others, each subject in its place. -/
inductive AsciiText (facts : Facts) : Text → Prop
  | mk {w t w' : Text} (hw : Json.IsSpace w) (hw' : Json.IsSpace w')
      (he : Json.Listed AsciiEntry '\x7d' facts.entries t) :
      AsciiText facts (w ++ .char '\x7b' :: t ++ w')

theorem AsciiEntry.isAscii (h : AsciiEntry t e) : t.IsAscii := by
  have hquote : CodePoint.code '"' < 0x80 := by decide
  have hcolon : CodePoint.code ':' < 0x80 := by decide
  have hopening : CodePoint.code '[' < 0x80 := by decide
  cases h with
  | mk hs hw hw' ha =>
    have ha := ha.isAscii (by decide) fun _ _ => Json.AsciiLiteral.isAscii
    simp [hquote, hs.isAscii, hw.isAscii, hcolon, hw'.isAscii, hopening, ha]

theorem AsciiText.isAscii (h : AsciiText facts t) : t.IsAscii := by
  have hopening : CodePoint.code '\x7b' < 0x80 := by decide
  cases h with
  | mk hw hw' he =>
    have he := he.isAscii (by decide) fun _ _ => AsciiEntry.isAscii
    simp [hw.isAscii, hopening, he, hw'.isAscii]

theorem exists_asciiEntry_iff : (∃ t, AsciiEntry t e) ↔ e.1.isWhole && e.2.all Text.isWhole := by
  rw [Bool.and_eq_true, List.all_eq_true, ← Json.exists_asciiString_iff]
  simp only [← Json.exists_asciiLiteral_iff]
  rw [← Json.exists_listed_iff ']']
  constructor
  · rintro ⟨_, h⟩
    cases h with
    | mk hs hw hw' ha => exact ⟨⟨_, hs⟩, ⟨_, ha⟩⟩
  · rintro ⟨⟨s, hs⟩, ⟨t, ha⟩⟩
    exact ⟨_, .mk hs Json.isSpace_nil Json.isSpace_nil ha⟩

/-- Exactly the facts without halves have such a text. -/
theorem exists_asciiText_iff : (∃ t, AsciiText facts t) ↔ facts.isWhole := by
  rw [isWhole, List.all_eq_true]
  simp only [← exists_asciiEntry_iff]
  rw [← Json.exists_listed_iff '\x7d']
  constructor
  · rintro ⟨_, h⟩
    cases h with
    | mk hw hw' he => exact ⟨_, he⟩
  · rintro ⟨t, he⟩
    exact ⟨_, .mk Json.isSpace_nil Json.isSpace_nil he⟩

theorem AsciiEntry.takes {stops : Json.Stop → Prop} {room : Nat} (h : AsciiEntry t e) :
    Json.Takes stops (Json.memberOf (Json.valueWithin (room + 1))) t (e.1, Json.ofTexts e.2) := by
  cases h with
  | mk hs hw hw' ha =>
    exact Json.takes_member (Json.quotes_of_quoted hs.quoted) hw hw'
      (Json.takes_array (ha.map Json.string fun _ _ => Json.AsciiLiteral.takes room))

theorem AsciiText.read_eq (room : Nat) (h : AsciiText facts t) :
    Json.read (room + 2) t = .ok facts.toJson := by
  cases h with
  | @mk w t w' hw hw' he =>
    have htakes : Json.Takes (fun _ => False) (Json.valueWithin (room + 2))
        (.char '\x7b' :: t)
        (.object (OrderedMap.settle (facts.entries.map fun e => (e.1, Json.ofTexts e.2)))) :=
      Json.takes_object (he.map _ fun _ _ => AsciiEntry.takes)
    have hnodup : ((facts.entries.map fun e => (e.1, Json.ofTexts e.2)).map Prod.fst).Nodup := by
      rw [List.map_map]
      exact facts.nodup
    rw [OrderedMap.settle_of_nodup hnodup] at htakes
    rw [Json.read, (Json.document_takes hw hw' htakes).eq_ok]
    rfl

theorem AsciiText.head?_ne_mark (h : AsciiText facts t) : t.head? ≠ some '\uFEFF' := by
  intro hmark
  have hlt := h.isAscii _ (List.mem_of_mem_head? hmark)
  revert hlt
  decide

/-- Every text in ASCII that gives facts is read as exactly these, in the same order, from a string
and from bytes with the mark of UTF-8 or without it, as soon as there is room for two brackets. -/
theorem read_ascii (room : Nat) (h : AsciiText facts t) :
    t.IsAscii ∧ ofText (room + 2) t = .ok facts ∧ ofBytes (room + 2) (Utf8.encode t) = .ok facts ∧
      ofBytes (room + 2) (Utf8.mark ++ Utf8.encode t) = .ok facts := by
  have htext : ofText (room + 2) t = .ok facts := by
    rw [ofText, h.read_eq room]
    simp only [ofJson_toJson]
    rfl
  have hd := Utf8.decode_encode h.isAscii.isWhole
  refine ⟨h.isAscii, htext, ?_, ?_⟩
  · rw [ofBytes, Utf8.dropMark_encode h.isAscii.isWhole h.head?_ne_mark, hd]
    exact htext
  · rw [ofBytes, show Utf8.dropMark (Utf8.mark ++ Utf8.encode t) = Utf8.encode t from rfl, hd]
    exact htext

theorem read_ascii_gatto :
    let facts : Facts := ⟨[("GATTO", ["un animale", "è😀"])], by decide⟩
    let t : Text := "\x7b\"GATTO\":[\"un animale\", \"\\u00E8\\ud83d\\uDe00\"]\x7d\n"
    AsciiText facts t ∧ ofBytes 900 (Utf8.encode t) = .ok facts := by
  intro facts t
  have hspace : Json.IsSpace [.char ' '] ∧ Json.IsSpace [.char '\n'] := by
    simp [Json.IsSpace, Json.isSpace]
  have hcode : Json.HexDigits "00E8" (CodePoint.code 'è') :=
    .mk (.figure (n := 0) (by decide)) (.figure (n := 0) (by decide))
      (.capital (n := 4) (by decide)) (.figure (n := 8) (by decide))
  have hhigh : Json.HexDigits "d83d" 0xD83D :=
    .mk (.small (n := 3) (by decide)) (.figure (n := 8) (by decide))
      (.figure (n := 3) (by decide)) (.small (n := 3) (by decide))
  have hlow : Json.HexDigits "De00" 0xDE00 :=
    .mk (.capital (n := 3) (by decide)) (.small (n := 4) (by decide))
      (.figure (n := 0) (by decide)) (.figure (n := 0) (by decide))
  have hpair : Json.AsciiForm "\\ud83d\\uDe00" '😀' := by
    have hcode : CodePoint.code '😀' = 0x1F600 := by decide
    refine Json.AsciiForm.pair (by omega) (?_ : Json.HexDigits "d83d" _)
      (?_ : Json.HexDigits "De00" _)
    · rw [hcode]
      exact hhigh
    · rw [hcode]
      exact hlow
  have hanimale : Json.AsciiLiteral "\"un animale\"" "un animale" :=
    .mk (Json.asciiString_of_printable (t := "un animale") (by decide))
  have hescaped : Json.AsciiLiteral "\"\\u00E8\\ud83d\\uDe00\"" "è😀" :=
    .mk (.cons (.code rfl hcode) (.cons hpair .nil))
  have he : AsciiEntry "\"GATTO\":[\"un animale\", \"\\u00E8\\ud83d\\uDe00\"]"
      ("GATTO", ["un animale", "è😀"]) :=
    .mk (s := "GATTO") (Json.asciiString_of_printable (by decide)) Json.isSpace_nil
      Json.isSpace_nil (.items Json.isSpace_nil (.more hanimale Json.isSpace_nil hspace.1
        (.last hescaped Json.isSpace_nil)))
  have hentries : Json.Listed AsciiEntry '\x7d' facts.entries
      "\"GATTO\":[\"un animale\", \"\\u00E8\\ud83d\\uDe00\"]\x7d" :=
    .items Json.isSpace_nil (.last he Json.isSpace_nil)
  have h : AsciiText facts t := .mk Json.isSpace_nil hspace.2 hentries
  exact ⟨h, (read_ascii 898 h).2.2.1⟩

end Syllogism.Facts
