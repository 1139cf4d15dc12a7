import Syllogism.Proofs.Facts.Stored
import Syllogism.Proofs.Json.Limits
import Syllogism.Proofs.Text.Decoded

/-! What becomes of any text and of any bytes that are read as facts. -/

namespace Syllogism

namespace Json

theorem mapM_text?_eq_some_iff {items : List Json} {ts : List Text} :
    items.mapM text? = some ts ↔ items = ts.map string := by
  constructor
  · intro h
    induction items generalizing ts with
    | nil =>
      obtain rfl := Option.some.inj h
      rfl
    | cons v items ih =>
      cases v with
      | string t =>
        simp only [List.mapM_cons, text?, Option.pure_def, Option.bind_eq_bind, Option.bind_some,
          Option.bind_eq_some_iff, Option.some.injEq] at h
        obtain ⟨ts', hts, rfl⟩ := h
        rw [List.map_cons, ← ih hts]
      | _ => simp [text?] at h
  · rintro rfl
    exact mapM_text?_string ts

theorem texts?_eq_some_iff {v : Json} {ts : List Text} : v.texts? = some ts ↔ v = ofTexts ts := by
  cases v with
  | array items => simp [texts?, ofTexts, mapM_text?_eq_some_iff]
  | _ => simp [texts?, ofTexts]

theorem Numeral.meaning_ne_object (n : Numeral) (members : List (Text × Json)) :
    n.meaning ≠ object members := by
  unfold Numeral.meaning
  split <;> simp

/-- Each name of a written object stands in it once. -/
theorem Document.nodup {t : Text} {members : List (Text × Json)} (h : Document t (object members)) :
    (members.map Prod.fst).Nodup := by
  cases h with
  | @mk w t w' v layers hw hw' hv =>
    cases layers with
    | zero => exact hv.elim
    | succ layers =>
      generalize hobject : object members = v at hv
      cases hv with
      | word h =>
        subst hobject
        simp [words] at h
      | number h _ => exact absurd hobject.symm (Numeral.meaning_ne_object _ members)
      | string h => cases hobject
      | brackets h =>
        cases h with
        | array h => cases hobject
        | object h hr =>
          obtain rfl := object.inj hobject
          rw [hr.eq_settle]
          exact OrderedMap.nodup_settle _

end Json

namespace Facts

variable {room : Nat} {t : Text} {bytes : Bytes} {facts : Facts} {unread : Unread}

/-- The text is a JSON object with the subjects for names, each with the array of its attributes. -/
def Holds (t : Text) (facts : Facts) : Prop := Json.Document t facts.toJson

/-- The text is JSON up to what is beyond the reader: an integer with too many digits, or one bracket
more than there is room for. Whether the whole of it holds facts does not matter. -/
def Exceeds (room : Nat) (t : Text) : Unread → Prop
  | .malformed _ => False
  | .longInteger digits => Json.Exceeds room t (.longInteger digits)
  | .deepNesting => Json.Exceeds room t .deepNesting

/-- The bytes are the UTF-8 of the text, a byte order mark in front of it or not. -/
def Encodes (bytes : Bytes) (t : Text) : Prop :=
  t.isWhole ∧ (bytes = Utf8.encode t ∨ bytes = Utf8.mark ++ Utf8.encode t)

/-- The bytes are the UTF-8 of a text with the facts. -/
def Keeps (bytes : Bytes) (facts : Facts) : Prop := ∃ t, Encodes bytes t ∧ Holds t facts

/-- The bytes are the UTF-8 of a text that is beyond the reader. -/
def Overruns (room : Nat) (bytes : Bytes) (unread : Unread) : Prop :=
  ∃ t, Encodes bytes t ∧ Exceeds room t unread

/-- What is held is read, what holds nothing is malformed, and what is beyond the limits comes to that
limit, each of them exactly then. -/
structure ReadsExactly (answer : Except Unread Facts) (held : Facts → Prop)
    (beyond : Unread → Prop) : Prop where
  ok_iff : ∀ facts, answer = .ok facts ↔ held facts ∧ ∀ unread, ¬ beyond unread
  malformed_iff : (∃ fault, answer = .error (.malformed fault)) ↔
    (∀ facts, ¬ held facts) ∧ ∀ unread, ¬ beyond unread
  beyond_iff : ∀ unread, (answer = .error unread ∧ ∀ fault, unread ≠ .malformed fault) ↔
    beyond unread

/-! The three answers there are -/

section

variable {held held' : Facts → Prop} {beyond beyond' : Unread → Prop}

theorem readsExactly_ok (hheld : ∀ facts', held facts' ↔ facts' = facts)
    (hbeyond : ∀ unread, ¬ beyond unread) : ReadsExactly (.ok facts) held beyond := by
  refine ⟨?_, ?_, ?_⟩
  · intro facts'
    rw [hheld, and_iff_left hbeyond, Except.ok.injEq, eq_comm]
  · constructor
    · rintro ⟨fault, h⟩
      cases h
    · rintro ⟨h, -⟩
      exact absurd ((hheld facts).mpr rfl) (h facts)
  · intro unread
    constructor
    · rintro ⟨h, -⟩
      cases h
    · exact fun h => absurd h (hbeyond unread)

theorem readsExactly_malformed (fault : Fault) (hheld : ∀ facts, ¬ held facts)
    (hbeyond : ∀ unread, ¬ beyond unread) :
    ReadsExactly (.error (.malformed fault)) held beyond := by
  refine ⟨?_, ?_, ?_⟩
  · intro facts
    constructor
    · intro h
      cases h
    · rintro ⟨h, -⟩
      exact absurd h (hheld facts)
  · exact ⟨fun _ => ⟨hheld, hbeyond⟩, fun _ => ⟨fault, rfl⟩⟩
  · intro unread
    constructor
    · rintro ⟨h, hne⟩
      exact absurd (Except.error.inj h).symm (hne fault)
    · exact fun h => absurd h (hbeyond unread)

theorem readsExactly_beyond (hbeyond : ∀ unread', beyond unread' ↔ unread' = unread)
    (hne : ∀ fault, unread ≠ .malformed fault) : ReadsExactly (.error unread) held beyond := by
  have hsome : ¬ ∀ unread', ¬ beyond unread' := fun h => h unread ((hbeyond unread).mpr rfl)
  refine ⟨?_, ?_, ?_⟩
  · intro facts
    constructor
    · intro h
      cases h
    · exact fun h => absurd h.2 hsome
  · constructor
    · rintro ⟨fault, h⟩
      exact absurd (Except.error.inj h) (hne fault)
    · exact fun h => absurd h.2 hsome
  · intro unread'
    rw [hbeyond]
    constructor
    · rintro ⟨h, -⟩
      exact (Except.error.inj h).symm
    · rintro rfl
      exact ⟨rfl, hne⟩

theorem ReadsExactly.congr {answer : Except Unread Facts} (h : ReadsExactly answer held beyond)
    (hheld : ∀ facts, held' facts ↔ held facts)
    (hbeyond : ∀ unread, beyond' unread ↔ beyond unread) : ReadsExactly answer held' beyond' := by
  obtain rfl : held' = held := funext fun facts => propext (hheld facts)
  obtain rfl : beyond' = beyond := funext fun unread => propext (hbeyond unread)
  exact h

end

/-! Texts -/

theorem entriesOf_eq_ok {members : List (Text × Json)} {entries : List (Text × List Text)}
    (h : entriesOf members = .ok entries) :
    members = entries.map fun e => (e.1, Json.ofTexts e.2) := by
  induction members generalizing entries with
  | nil =>
    obtain rfl := Except.ok.inj h
    rfl
  | cons m members ih =>
    rw [entriesOf] at h
    split at h
    · cases h
    · rename_i attributes hv
      obtain ⟨rest, hr, rfl⟩ := map_eq_ok.mp h
      rw [List.map_cons, ← ih hr, ← Json.texts?_eq_some_iff.mp hv]

theorem eq_toJson_of_ofJson {v : Json} (hv : Json.Document t v) (h : ofJson v = .ok facts) :
    v = facts.toJson := by
  cases v with
  | object members =>
    obtain ⟨entries, he, rfl⟩ := map_eq_ok.mp h
    have hm := entriesOf_eq_ok he
    have hn : (entries.map Prod.fst).Nodup := by
      have hnodup := hv.nodup
      rwa [hm, List.map_map] at hnodup
    rw [toJson, OrderedMap.entries_ofList, OrderedMap.settle_of_nodup hn, hm]
  | _ => cases h

/-- A text that holds facts is read as these facts, or it is beyond the reader. -/
theorem Holds.document (h : Holds t facts) (room : Nat) :
    Json.document room t = .ok facts.toJson ∨
      ∃ stop, stop.isLimit = true ∧ Json.document room t = .error stop :=
  Json.Document.gets h room

/-- A text that is read as a value holds the facts that the value is for. -/
theorem holds_iff_of_document {v : Json} (hd : Json.document room t = .ok v) (facts : Facts) :
    Holds t facts ↔ ofJson v = .ok facts := by
  constructor
  · intro h
    obtain h | ⟨stop, -, h⟩ := h.document room <;> rw [hd] at h
    · rw [Except.ok.inj h, ofJson_toJson]
    · cases h
  · intro h
    have hv := Json.document_of_ok hd
    rwa [eq_toJson_of_ofJson hv h] at hv

/-- A text with a fault in its JSON holds nothing. -/
theorem not_holds_of_fault {reason : Json.Reason} {left : Nat}
    (hd : Json.document room t = .error (.fault reason left)) (facts : Facts) :
    ¬ Holds t facts := by
  intro h
  obtain h | ⟨stop, hs, h⟩ := h.document room <;> rw [hd] at h
  · cases h
  · obtain rfl := Except.error.inj h
    cases hs

theorem Holds.head?_ne_mark (h : Holds t facts) : t.head? ≠ some '\uFEFF' :=
  Json.Document.head?_ne_mark h

theorem Exceeds.stop (h : Exceeds room t unread) : ∃ stop, Json.Exceeds room t stop := by
  cases unread with
  | malformed fault => exact h.elim
  | longInteger digits => exact ⟨_, h⟩
  | deepNesting => exact ⟨_, h⟩

theorem Exceeds.head?_ne_mark (h : Exceeds room t unread) : t.head? ≠ some '\uFEFF' := by
  obtain ⟨stop, hw, hu⟩ := h.stop
  exact Json.head?_ne_mark hw hu.opens

/-- A text that the reader of JSON gets to the end of is not beyond it. -/
theorem not_exceeds_of_document
    (h : ∀ stop, Json.document room t = .error stop → stop.isLimit = false) (unread : Unread) :
    ¬ Exceeds room t unread := by
  intro hex
  obtain ⟨stop, hstop⟩ := hex.stop
  obtain ⟨hd, hlimit⟩ := Json.document_eq_error_iff.mpr hstop
  rw [h stop hd] at hlimit
  cases hlimit

/-- The reader of JSON stops for a limit exactly where the text is beyond it. -/
theorem exceeds_iff_of_document {stop : Json.Stop} (hd : Json.document room t = .error stop)
    (hs : stop.isLimit = true) (stop' : Json.Stop) : Json.Exceeds room t stop' ↔ stop' = stop := by
  rw [← Json.document_eq_error_iff, hd]
  constructor
  · rintro ⟨h, -⟩
    exact (Except.error.inj h).symm
  · rintro rfl
    exact ⟨rfl, hs⟩

/-- A text is read as the facts that it holds, or as malformed if it holds none, unless it comes to
what is beyond the reader first. -/
theorem ofText_exactly (room : Nat) (t : Text) :
    ReadsExactly (ofText room t) (Holds t) (Exceeds room t) := by
  rw [ofText, Json.read]
  cases hd : Json.document room t with
  | ok v =>
    have hbeyond := @not_exceeds_of_document room t (by simp [hd])
    change ReadsExactly ((ofJson v).mapError .malformed) _ _
    cases hj : ofJson v with
    | ok facts =>
      refine readsExactly_ok ?_ hbeyond
      intro facts'
      rw [holds_iff_of_document hd, hj, Except.ok.injEq, eq_comm]
    | error fault =>
      refine readsExactly_malformed fault ?_ hbeyond
      intro facts h
      rw [holds_iff_of_document hd, hj] at h
      cases h
  | error stop =>
    cases stop with
    | fault reason left =>
      refine readsExactly_malformed _ (not_holds_of_fault hd) (not_exceeds_of_document ?_)
      intro stop h
      obtain rfl := Except.error.inj (hd.symm.trans h)
      rfl
    | longInteger digits =>
      refine readsExactly_beyond ?_ (by simp)
      intro unread
      cases unread <;> simp [Exceeds, exceeds_iff_of_document hd rfl]
    | deepNesting =>
      refine readsExactly_beyond ?_ (by simp)
      intro unread
      cases unread <;> simp [Exceeds, exceeds_iff_of_document hd rfl]

/-! Bytes -/

/-- Bytes have one text with no mark in front: the one that they are decoded to. -/
theorem Encodes.decode (h : Encodes bytes t) (hm : t.head? ≠ some '\uFEFF') :
    Utf8.decode (Utf8.dropMark bytes) = .ok t := by
  obtain ⟨hw, rfl | rfl⟩ := h
  · rw [Utf8.dropMark_encode hw hm, Utf8.decode_encode hw]
  · rw [show Utf8.dropMark (Utf8.mark ++ Utf8.encode t) = Utf8.encode t from rfl,
      Utf8.decode_encode hw]

theorem encodes_of_decode (h : Utf8.decode (Utf8.dropMark bytes) = .ok t) : Encodes bytes t := by
  obtain ⟨hw, he⟩ := Utf8.decode_eq_ok_iff.mp h
  refine ⟨hw, ?_⟩
  rw [he]
  exact (Utf8.dropMark_cases bytes).symm.imp_left Eq.symm

/-- What is said of a text without a mark is said of the bytes if it holds of the text that they are
decoded to. -/
theorem exists_encodes_iff {p : Text → Prop} (hp : ∀ t, p t → t.head? ≠ some '\uFEFF') :
    (∃ t, Encodes bytes t ∧ p t) ↔ ∃ t, Utf8.decode (Utf8.dropMark bytes) = .ok t ∧ p t := by
  constructor
  · rintro ⟨t, he, h⟩
    exact ⟨t, he.decode (hp t h), h⟩
  · rintro ⟨t, hd, h⟩
    exact ⟨t, encodes_of_decode hd, h⟩

/-- Bytes are read as the text that they are decoded to, and bytes that are not decoded hold nothing. -/
theorem ofBytes_exactly (room : Nat) (bytes : Bytes) :
    ReadsExactly (ofBytes room bytes) (Keeps bytes) (Overruns room bytes) := by
  have hkeeps : ∀ facts, Keeps bytes facts ↔
      ∃ t, Utf8.decode (Utf8.dropMark bytes) = .ok t ∧ Holds t facts :=
    fun facts => exists_encodes_iff fun t h => h.head?_ne_mark
  have hoverruns : ∀ unread, Overruns room bytes unread ↔
      ∃ t, Utf8.decode (Utf8.dropMark bytes) = .ok t ∧ Exceeds room t unread :=
    fun unread => exists_encodes_iff fun t h => h.head?_ne_mark
  rw [ofBytes]
  cases hd : Utf8.decode (Utf8.dropMark bytes) with
  | error fault =>
    refine readsExactly_malformed _ ?_ ?_
    · intro facts
      simp [hkeeps, hd]
    · intro unread
      simp [hoverruns, hd]
  | ok t =>
    refine (ofText_exactly room t).congr ?_ ?_
    · intro facts
      simp [hkeeps, hd]
    · intro unread
      simp [hoverruns, hd]

/-- Every text and all bytes are read as the facts that they hold, or as malformed if they hold none,
unless an integer in them is too long for the reader or a bracket too deep. -/
theorem read_exactly (room : Nat) (t : Text) (bytes : Bytes) :
    ReadsExactly (ofText room t) (Holds t) (Exceeds room t) ∧
      ReadsExactly (ofBytes room bytes) (Keeps bytes) (Overruns room bytes) :=
  ⟨ofText_exactly room t, ofBytes_exactly room bytes⟩

/-! What is beyond the limits is not called malformed -/

/-- An integer beyond the limit is no object either, but it is not called malformed. -/
theorem ofText_longInteger (room : Nat) {digits : Text} (hw : Json.IsWhole digits)
    (hl : Json.digitLimit < digits.length) :
    ofText room digits = .error (.longInteger digits.length) := by
  have hs : Json.Numeral.Spelled ⟨false, digits, [], none⟩ digits := by
    have h := Json.Numeral.Spelled.mk (n := ⟨false, digits, [], none⟩) hw .none .none
    rwa [List.append_nil, List.append_nil] at h
  have hex : Exceeds room digits (.longInteger digits.length) := by
    have h : Json.Exceeds room ([] ++ (digits ++ [])) _ :=
      .mk Json.isSpace_nil (.integer hs ⟨rfl, rfl⟩ hl Json.not_goesOn_nil)
    rwa [List.nil_append, List.append_nil] at h
  exact ((ofText_exactly room digits).beyond_iff _ |>.mpr hex).1

theorem beyond_openings (room : Nat) (t : Text) :
    Json.Beyond room (List.replicate (room + 1) (.char '[') ++ t) .deepNesting := by
  induction room with
  | zero => exact .bracket (.inl rfl) t
  | succ room ih =>
    have h : Json.Beyond (room + 1)
        (.char '[' :: [] ++ [] ++ (List.replicate (room + 1) (.char '[') ++ t)) .deepNesting :=
      .array Json.isSpace_nil .none ih
    exact h

/-- Brackets beyond the limit are not called malformed, whatever follows them. -/
theorem ofText_deepNesting (room : Nat) (t : Text) :
    ofText room (List.replicate (room + 1) (.char '[') ++ t) = .error .deepNesting :=
  ((ofText_exactly room _).beyond_iff .deepNesting |>.mpr
    (.mk Json.isSpace_nil (beyond_openings room t))).1

theorem isWhole_ones (n : Nat) : Json.IsWhole (List.replicate (n + 1) (.char '1')) := by
  refine .inr ⟨⟨by simp [List.replicate_succ], ?_⟩, by simp [List.replicate_succ]⟩
  intro c hc
  rw [(List.mem_replicate.mp hc).2]
  rfl

/-- A number is no object, but one with 4301 digits is not called malformed. -/
theorem long_number_not_malformed :
    ofText 900 (List.replicate 4301 (.char '1')) = .error (.longInteger 4301) := by
  have hl : (List.replicate 4301 (CodePoint.char '1')).length = 4301 := List.length_replicate
  have h := ofText_longInteger 900 (isWhole_ones 4300) (by rw [hl, Json.digitLimit]; omega)
  rwa [hl] at h

end Facts

end Syllogism
