import Syllogism.Proofs.Disk.Path
import Syllogism.Proofs.Except

/-! A file that takes the place of another is read back from the same path. -/

namespace Syllogism

namespace Node

variable {n m : Node} {s t : Spot} {bytes : Bytes}

def IsDirectory (n : Node) : Prop := ∃ entries, n = directory entries

theorem at?_append (n : Node) (s t : Spot) : n.at? (s ++ t) = (n.at? s).bind (·.at? t) := by
  induction s generalizing n with
  | nil => rfl
  | cons name s ih =>
    rw [List.cons_append, at?, at?, Option.bind_assoc]
    exact congrArg (Option.bind _) (funext ih)

/-- On the way to a spot where something is put, directories lie. -/
theorem at?_put_before (n : Node) (s : Spot) (name : Text) (rest : Spot) (new : Node) :
    ∃ m, (n.put (s ++ name :: rest) new).at? s = some m ∧ m.IsDirectory := by
  induction s generalizing n with
  | nil => exact ⟨_, rfl, _, rfl⟩
  | cons first s ih =>
    rw [List.cons_append, at?, child?_put_cons, if_pos rfl, Option.bind_some]
    exact ih _

/-- A file that is put where no directory lies leaves what was there: something stays, and a
directory stays one. -/
theorem at?_put_file (hs : ∀ m, n.at? s = some m → ¬ m.IsDirectory) (ht : n.at? t = some m) :
    ∃ m', (n.put s (file bytes)).at? t = some m' ∧ (m.IsDirectory → m'.IsDirectory) := by
  by_cases hst : s <+: t
  · -- below a file nothing lies, so `t` is the spot itself
    obtain ⟨rest, rfl⟩ := hst
    rw [at?_append, Option.bind_eq_some_iff] at ht
    obtain ⟨m₀, hm₀, ht⟩ := ht
    have hm := hs m₀ hm₀
    cases rest with
    | nil =>
      obtain rfl := Option.some.inj ht
      rw [at?_put_append]
      exact ⟨_, rfl, fun h => absurd h hm⟩
    | cons name rest =>
      cases m₀ with
      | file old => cases ht
      | directory entries => exact absurd ⟨entries, rfl⟩ hm
  · by_cases hts : t <+: s
    · obtain ⟨rest, rfl⟩ := hts
      cases rest with
      | nil => exact absurd ⟨[], by rw [List.append_nil, List.append_nil]⟩ hst
      | cons name rest =>
        obtain ⟨m', hm', hd⟩ := at?_put_before n t name rest (file bytes)
        exact ⟨m', hm', fun _ => hd⟩
    · rw [at?_put_of_apart n _ hst hts]
      exact ⟨m, ht, id⟩

end Node

namespace Disk

variable {d d' : Disk} {s t u : Spot} {bytes : Bytes} {p : Path}

theorem directory?_eq_ok :
    d.directory? s = .ok t ↔ t = s ∧ ∃ n, d.node? s = some n ∧ n.IsDirectory := by
  rw [directory?]
  cases h : d.node? s with
  | none => simp
  | some n =>
    cases n with
    | file bytes => simp [Node.IsDirectory]
    | directory entries => simp [Node.IsDirectory, eq_comm]

theorem node?_put (d : Disk) (s : Spot) (n : Node) : (d.put s n).node? s = some n := by
  have h := Node.at?_put_append d.root s [] n
  rwa [List.append_nil] at h

/-- A disk has all spots and all directories of another one. -/
def Extends (d' d : Disk) : Prop :=
  ∀ t n, d.node? t = some n → ∃ n', d'.node? t = some n' ∧ (n.IsDirectory → n'.IsDirectory)

theorem extends_put (hs : ∀ n, d.node? s = some n → ¬ n.IsDirectory) :
    (d.put s (.file bytes)).Extends d := by
  intro t n ht
  exact Node.at?_put_file hs ht

theorem Extends.directory? (h : d'.Extends d) (hd : d.directory? s = .ok t) :
    d'.directory? s = .ok t := by
  obtain ⟨hts, n, hn, hdir⟩ := directory?_eq_ok.mp hd
  obtain ⟨n', hn', hdir'⟩ := h s n hn
  exact directory?_eq_ok.mpr ⟨hts, n', hn', hdir' hdir⟩

theorem Extends.step (h : d'.Extends d) {name : Text} (hd : d.step s name = .ok t) :
    d'.step s name = .ok t := by
  unfold Disk.step at hd ⊢
  split at hd
  · rename_i hn
    rw [if_pos hn]
    exact hd
  · rename_i hn
    rw [if_neg hn]
    split at hd
    · rename_i hn
      rw [if_pos hn]
      exact hd
    · rename_i hn
      rw [if_neg hn]
      split at hd
      · cases hd
      · rename_i hf
        rw [if_neg hf]
        split at hd
        · cases hd
        · rename_i ht
          obtain ⟨n, hn⟩ := Option.ne_none_iff_exists'.mp (mt Option.isNone_iff_eq_none.mpr ht)
          obtain ⟨n', hn', -⟩ := h _ n hn
          rw [hn', Option.isNone_some, if_neg Bool.false_ne_true]
          exact hd

theorem follow_append (d : Disk) (s : Spot) (names rest : List Text) :
    d.follow s (names ++ rest) = (d.follow s names >>= fun t => d.follow t rest) := by
  induction names generalizing s with
  | nil => rfl
  | cons name names ih =>
    simp only [List.cons_append, follow, bind_assoc, ih]

theorem Extends.follow (h : d'.Extends d) {names : List Text} (hd : d.follow s names = .ok t) :
    d'.follow s names = .ok t := by
  induction names generalizing s with
  | nil => exact hd
  | cons name names ih =>
    rw [Disk.follow] at hd ⊢
    obtain ⟨u, hu, hd⟩ := bind_eq_ok.mp hd
    obtain ⟨v, hv, hd⟩ := bind_eq_ok.mp hd
    exact bind_eq_ok.mpr ⟨u, h.directory? hu, bind_eq_ok.mpr ⟨v, h.step hv, ih hd⟩⟩

theorem nameFits_of_draftFits {name : Text} (h : draftFits s name = true) : nameFits name := by
  rw [draftFits, Bool.and_eq_true] at h
  have hd := h.1
  simp only [nameFits, draftName, Path.bytes_append, List.length_append, decide_eq_true_eq] at hd ⊢
  omega

/-- The end of a path that has a name is the spot of that name in the directory before it. -/
theorem step_eq_ok_append {name : Text} (hf : nameFits name = true) (h₁ : name ≠ Text.of ".")
    (h₂ : name ≠ Text.of "..") {n : Node} (hn : d.node? (s ++ [name]) = some n) :
    d.step s name = .ok (s ++ [name]) := by
  rw [step, if_neg h₁, if_neg h₂, hf, Bool.not_true, if_neg Bool.false_ne_true, hn,
    Option.isNone_some, if_neg Bool.false_ne_true]

theorem start_eq_ok {r : Route} (h : d.start r = .ok s) :
    s = if r.fromRoot then [] else d.here := by
  unfold start at h
  split at h
  · cases h
  · exact (Except.ok.inj h).symm

/-- A draft is written in the directory before the end of the path. -/
theorem draftSpot_eq_ok (h : d.draftSpot p = .ok s) :
    d.follow (if p.route.fromRoot then [] else d.here) p.parent.names = .ok s ∧
      d.directory? s = .ok s ∧ draftFits s p.name = true := by
  rw [draftSpot] at h
  obtain ⟨t, ht, h⟩ := bind_eq_ok.mp h
  obtain ⟨u, hu, h⟩ := bind_eq_ok.mp h
  obtain ⟨v, hv, h⟩ := bind_eq_ok.mp h
  split at h
  · rename_i hf
    obtain rfl := Except.ok.inj h
    obtain rfl := (directory?_eq_ok.mp hv).1
    obtain rfl := start_eq_ok ht
    exact ⟨hu, hv, hf⟩
  · cases h

theorem names_eq_parent_append (hp : p.names ≠ []) : p.names = p.parent.names ++ [p.name] := by
  rw [Path.parent, Path.name, List.getLast?_eq_some_getLast hp, Option.getD_some,
    List.dropLast_concat_getLast hp]

/-- What is put where a path with a name ends is found at this path. -/
theorem find_put (hp : Text.of "." ∉ p.names) (hn : p.names ≠ []) (hb : p.name ≠ Text.of "..")
    (hs : d.draftSpot p = .ok s) (ht : d.start p.route = .ok t)
    (hd : ∀ n, d.node? (s ++ [p.name]) = some n → ¬ n.IsDirectory) :
    (d.put (s ++ [p.name]) (.file bytes)).find p.route = .ok (s ++ [p.name]) := by
  obtain ⟨hf, hs, hfit⟩ := draftSpot_eq_ok hs
  obtain rfl := start_eq_ok ht
  have he : (d.put (s ++ [p.name]) (.file bytes)).Extends d := extends_put hd
  have hdot : p.name ≠ Text.of "." := by
    intro hdot
    rw [names_eq_parent_append hn, hdot] at hp
    exact hp (List.mem_append_right _ List.mem_cons_self)
  refine bind_eq_ok.mpr ⟨_, ht, ?_⟩
  show Disk.follow _ _ p.names = _
  rw [names_eq_parent_append hn, follow_append]
  refine bind_eq_ok.mpr ⟨s, he.follow hf, ?_⟩
  refine bind_eq_ok.mpr ⟨s, he.directory? hs, ?_⟩
  exact bind_eq_ok.mpr ⟨_, step_eq_ok_append (nameFits_of_draftFits hfit) hdot hb (node?_put _ _ _), rfl⟩

end Disk

end Syllogism
