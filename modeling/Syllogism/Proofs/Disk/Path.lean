import Syllogism.Disk.Replace
import Syllogism.Proofs.Text.Utf8

/-! What the text of a path is made of, and so what can make it unfit for the system. -/

namespace Syllogism

theorem Text.mem_intercalate {separator : Text} {ts : List Text} {c : CodePoint} :
    c ∈ List.intercalate separator ts → c ∈ separator ∨ ∃ t ∈ ts, c ∈ t := by
  induction ts with
  | nil => simp [List.intercalate]
  | cons t ts ih =>
    cases ts with
    | nil =>
      rw [List.intercalate_singleton]
      exact fun hc => .inr ⟨t, List.mem_cons_self, hc⟩
    | cons u ts =>
      rw [List.intercalate_cons_cons, List.mem_append, List.mem_append]
      rintro ((hc | hc) | hc)
      · exact .inr ⟨t, List.mem_cons_self, hc⟩
      · exact .inl hc
      · obtain hs | ⟨v, hv, hc⟩ := ih hc
        · exact .inl hs
        · exact .inr ⟨v, List.mem_cons_of_mem t hv, hc⟩

theorem Text.mem_intercalate_of_mem {separator t : Text} {ts : List Text} {c : CodePoint}
    (ht : t ∈ ts) (hc : c ∈ t) : c ∈ List.intercalate separator ts := by
  induction ts with
  | nil => cases ht
  | cons u ts ih =>
    cases ts with
    | nil =>
      obtain rfl := List.mem_singleton.mp ht
      rwa [List.intercalate_singleton]
    | cons v ts =>
      rw [List.intercalate_cons_cons, List.mem_append, List.mem_append]
      obtain rfl | ht := List.mem_cons.mp ht
      · exact .inl (.inl hc)
      · exact .inr (ih ht)

namespace Path

variable {p : Path} {t name : Text} {c : CodePoint} {u : Unfit}

theorem bytes_append (s t : Text) : bytes (s ++ t) = bytes s ++ bytes t := List.flatMap_append

/-! The characters of a path are those of its names, and what stands between them. -/

theorem mem_text (h : c ∈ p.text) : c = '.' ∨ c = '/' ∨ ∃ name ∈ p.names, c ∈ name := by
  rw [text] at h
  split at h
  · exact .inl (List.mem_singleton.mp h)
  · obtain h | h := List.mem_append.mp h
    · exact .inr (.inl (List.mem_replicate.mp h).2)
    · obtain h | h := Text.mem_intercalate h
      · exact .inr (.inl (List.mem_singleton.mp h))
      · exact .inr (.inr h)

theorem mem_text_of_mem (hn : name ∈ p.names) (hc : c ∈ name) : c ∈ p.text := by
  have hne : p.names ≠ [] := List.ne_nil_of_mem hn
  rw [text, if_neg (fun h => hne h.2)]
  exact List.mem_append_right _ (Text.mem_intercalate_of_mem hn hc)

/-! What is unfit for the system -/

/-- What makes a text unfit stands in it. -/
def Unfit.In (t : Text) : Unfit → Prop
  | nul => .char '\x00' ∈ t
  | halves _ => ∃ n, .half n ∈ t ∧ isByteHalf n = false

theorem in_of_unfit? (h : unfit? t = some u) : u.In t := by
  rw [unfit?] at h
  split at h
  · rename_i gap hg
    obtain rfl := Option.some.inj h
    have hn := mt (Utf8.refused?_eq_none_iff t).mpr (hg ▸ Option.some_ne_none gap)
    obtain ⟨n, hn⟩ := Classical.not_forall.mp hn
    obtain ⟨hm, hb⟩ := Classical.not_imp.mp hn
    exact ⟨n, hm, Bool.eq_false_iff.mpr hb⟩
  · split at h
    · rename_i hc
      obtain rfl := Option.some.inj h
      exact List.contains_iff_mem.mp hc
    · cases h

theorem unfit?_eq_none_iff :
    unfit? t = none ↔ .char '\x00' ∉ t ∧ ∀ n, .half n ∈ t → isByteHalf n = true := by
  rw [unfit?, ← Utf8.refused?_eq_none_iff]
  cases Utf8.refused? isByteHalf t with
  | some gap => simp
  | none => simp

theorem Unfit.in_append {s t : Text} : u.In (s ++ t) ↔ u.In s ∨ u.In t := by
  cases u with
  | nul => exact List.mem_append
  | halves gap => simp only [In, List.mem_append, or_and_right, exists_or]

theorem not_in_of_unfit?_eq_none (h : unfit? t = none) : ¬ u.In t := by
  obtain ⟨hnul, hhalves⟩ := unfit?_eq_none_iff.mp h
  cases u with
  | nul => exact hnul
  | halves gap =>
    rintro ⟨n, hn, hb⟩
    rw [hhalves n hn] at hb
    cases hb

/-- What makes a path unfit stands in one of its names. -/
theorem exists_in_of_unfit?_text (h : unfit? p.text = some u) : ∃ name ∈ p.names, u.In name := by
  have hin := in_of_unfit? h
  cases u with
  | nul =>
    obtain hc | hc | h := mem_text hin
    · cases hc
    · cases hc
    · exact h
  | halves gap =>
    obtain ⟨n, hn, hb⟩ := hin
    obtain hc | hc | ⟨name, hname, hc⟩ := mem_text hn
    · cases hc
    · cases hc
    · exact ⟨name, hname, n, hc, hb⟩

theorem unfit?_text_eq_none_iff :
    unfit? p.text = none ↔ ∀ name ∈ p.names, unfit? name = none := by
  constructor
  · intro h name hn
    obtain ⟨hnul, hhalves⟩ := unfit?_eq_none_iff.mp h
    exact unfit?_eq_none_iff.mpr
      ⟨mt (mem_text_of_mem hn) hnul, fun n hm => hhalves n (mem_text_of_mem hn hm)⟩
  · intro h
    rw [unfit?_eq_none_iff]
    constructor
    · intro hm
      obtain hc | hc | ⟨name, hn, hc⟩ := mem_text hm
      · cases hc
      · cases hc
      · exact (unfit?_eq_none_iff.mp (h name hn)).1 hc
    · intro n hm
      obtain hc | hc | ⟨name, hn, hc⟩ := mem_text hm
      · cases hc
      · cases hc
      · exact (unfit?_eq_none_iff.mp (h name hn)).2 n hc

theorem unfit?_append_eq_none_iff {s t : Text} :
    unfit? (s ++ t) = none ↔ unfit? s = none ∧ unfit? t = none := by
  simp only [unfit?_eq_none_iff, List.mem_append, not_or, or_imp, forall_and]
  exact and_and_and_comm

theorem name_mem_names (h : p.name ≠ []) : p.name ∈ p.names := by
  rw [Path.name] at h ⊢
  cases hl : p.names.getLast? with
  | none => exact absurd (by rw [hl]; rfl) h
  | some name => exact List.mem_of_getLast? hl

/-- The names of a path are those of its parent, and the last one. -/
theorem mem_names (h : name ∈ p.names) : name ∈ p.parent.names ∨ name = p.name := by
  have hne : p.names ≠ [] := List.ne_nil_of_mem h
  rw [← List.dropLast_concat_getLast hne, List.mem_append, List.mem_singleton] at h
  rwa [Path.name, List.getLast?_eq_some_getLast hne]

theorem unfit?_text_of_parent (hp : unfit? p.parent.text = none) (hn : unfit? p.name = none) :
    unfit? p.text = none := by
  rw [unfit?_text_eq_none_iff] at hp ⊢
  intro name h
  obtain h | rfl := mem_names h
  · exact hp name h
  · exact hn

end Path

end Syllogism
