import Syllogism.Proofs.Disk.Directories
import Syllogism.Proofs.OrderedMap
import Mathlib.Tactic.SplitIfs

/-! A draft comes and goes: it is a new file, and when it is removed, or has gone to its place,
nothing is left of it. -/

namespace Syllogism

namespace Node

variable {n new : Node} {s : Spot} {name : Text}

theorem put_put (n : Node) (s : Spot) (old new : Node) : (n.put s old).put s new = n.put s new := by
  induction s generalizing n with
  | nil => rfl
  | cons name rest ih =>
    rw [put, child?_put_cons, if_pos rfl, Option.getD_some, ih, put, put, entries,
      OrderedMap.putIn_putIn]

/-- What was put where nothing lay in a directory can be removed, and the tree is as it was. -/
theorem remove_put (hs : ∃ m, n.at? s = some m ∧ m.IsDirectory) (hn : n.at? (s ++ [name]) = none) :
    (n.put (s ++ [name]) new).remove (s ++ [name]) = n := by
  induction s generalizing n with
  | nil =>
    obtain ⟨m, hm, entries, rfl⟩ := hs
    obtain rfl := Option.some.inj hm
    have hname : name ∉ entries.map Prod.fst := by
      rw [← OrderedMap.valueIn?_isSome]
      rw [List.nil_append, at?, Option.bind_eq_none_iff] at hn
      intro hsome
      obtain ⟨m, hm⟩ := Option.isSome_iff_exists.mp hsome
      exact absurd (hn m hm) (by simp [at?])
    rw [List.nil_append, put, remove]
    exact congrArg directory (OrderedMap.dropIn_putIn hname)
  | cons first s ih =>
    obtain ⟨m, hm, hdir⟩ := hs
    obtain ⟨inner, hinner, hm⟩ := Option.bind_eq_some_iff.mp hm
    rw [List.cons_append, at?, hinner, Option.bind_some] at hn
    have hi := ih ⟨m, hm, hdir⟩ hn
    obtain ⟨next, rest, hrest⟩ := List.exists_cons_of_ne_nil (show s ++ [name] ≠ [] by simp)
    cases n with
    | file bytes => cases hinner
    | directory entries =>
      have hput : (directory entries).put (first :: (s ++ [name])) new =
          directory (OrderedMap.putIn first (inner.put (s ++ [name]) new) entries) := by
        rw [put, hinner]
        rfl
      have hchild : (directory (OrderedMap.putIn first (inner.put (s ++ [name]) new)
          entries)).child? first = some (inner.put (s ++ [name]) new) :=
        (OrderedMap.valueIn?_putIn _ _ _ _).trans (if_pos rfl)
      rw [List.cons_append, hput, hrest, remove, ← hrest, hchild]
      simp only [hi, Node.entries, OrderedMap.putIn_putIn]
      exact congrArg directory (OrderedMap.putIn_of_valueIn? hinner)

end Node

namespace Disk

variable {d d' : Disk} {s draft : Spot} {p : Path} {bytes : Bytes}

/-! The name of a draft has the name of the file in it, and the text by which it is asked for has the
names on the way to it. -/

theorem unfit?_dot : Path.unfit? "." = none := by decide

theorem unfit?_zeros : Path.unfit? (Text.hex 8 0) = none := by decide

theorem in_draftName_iff {u : Path.Unfit} {name : Text} :
    u.In (draftName name 0) ↔ u.In name := by
  simp only [draftName, Path.Unfit.in_append, Path.not_in_of_unfit?_eq_none unfit?_dot,
    Path.not_in_of_unfit?_eq_none unfit?_zeros, or_false, false_or]

theorem unfit?_name_of_draftText (h : Path.unfit? (d.draftText p) = none) :
    Path.unfit? p.name = none := by
  have hname : Path.unfit? (draftName p.name 0) = none := by
    rw [draftText] at h
    split at h
    · exact Path.unfit?_text_eq_none_iff.mp h _ (by simp)
    · exact h
  simp only [draftName, Path.unfit?_append_eq_none_iff] at hname
  exact hname.1.1.2

theorem mem_of_step {t : Spot} {name next : Text} (h : d.step s next = .ok t) (hn : name ∈ t) :
    name ∈ s ∨ name = next := by
  rw [step] at h
  split_ifs at h
  · obtain rfl := Except.ok.inj h
    exact .inl hn
  · obtain rfl := Except.ok.inj h
    exact .inl (List.dropLast_subset s hn)
  · obtain rfl := Except.ok.inj h
    simpa using hn

theorem mem_of_follow {t : Spot} {names : List Text} (h : d.follow s names = .ok t) {name : Text}
    (hn : name ∈ t) : name ∈ s ∨ name ∈ names := by
  induction names generalizing s with
  | nil =>
    obtain rfl := Except.ok.inj h
    exact .inl hn
  | cons next names ih =>
    rw [follow] at h
    obtain ⟨u, hu, hrest⟩ := bind_eq_ok.mp h
    obtain ⟨v, hv, hrest⟩ := bind_eq_ok.mp hrest
    obtain ⟨rfl, -⟩ := directory?_eq_ok.mp hu
    obtain hm | hm := ih hrest
    · exact (mem_of_step hv hm).imp_right fun he => List.mem_cons.mpr (.inl he)
    · exact .inr (List.mem_cons_of_mem next hm)

/-- What makes the text unfit by which a draft is asked for stands in a name of the path. -/
theorem exists_in_of_unfit?_draftText {u : Path.Unfit}
    (h : Path.unfit? (d.draftText p) = some u) : ∃ name ∈ p.names, u.In name := by
  have hlast : u.In (draftName p.name 0) → ∃ name ∈ p.names, u.In name := by
    intro hin
    rw [in_draftName_iff] at hin
    by_cases hn : p.name = []
    · rw [hn] at hin
      exact absurd hin (Path.not_in_of_unfit?_eq_none rfl)
    · exact ⟨p.name, Path.name_mem_names hn, hin⟩
  rw [draftText] at h
  split at h
  · rename_i s hs
    obtain ⟨name, hname, hin⟩ := Path.exists_in_of_unfit?_text h
    obtain hm | hm := List.mem_append.mp hname
    · obtain ⟨start, hstart, hs⟩ := bind_eq_ok.mp hs
      obtain hm | hm := mem_of_follow hs hm
      · rw [Disk.start] at hstart
        split_ifs at hstart <;> obtain rfl := Except.ok.inj hstart
        · cases hm
        · exact absurd hin (Path.not_in_of_unfit?_eq_none (d.fits name hm))
      · exact ⟨name, List.dropLast_subset _ hm, hin⟩
    · exact hlast (List.mem_singleton.mp hm ▸ hin)
  · exact hlast (Path.in_of_unfit? h)

theorem length_hex (width n : Nat) : (Text.hex width n).length = width := by
  induction width generalizing n with
  | zero => rfl
  | succ width ih => rw [Text.hex, List.length_append, ih, List.length_singleton]

theorem draftName_ne (name : Text) (n : Nat) : draftName name n ≠ name := by
  intro h
  have hlength := congrArg List.length h
  simp only [draftName, List.length_append, length_hex] at hlength
  omega

theorem exists_of_draftFrom {name t : Text} {tries n : Nat}
    (h : d.draftFrom s name tries n = .ok t) : d.node? (s ++ [t]) = none ∧ t ≠ name := by
  induction tries generalizing n with
  | zero => cases h
  | succ tries ih =>
    rw [draftFrom] at h
    split at h
    · rename_i hn
      obtain rfl := Except.ok.inj h
      exact ⟨Option.isNone_iff_eq_none.mp hn, draftName_ne name n⟩
    · exact ih h

/-- A draft is an empty file that was not there, beside the end of the path. -/
theorem createDraft_eq_ok (h : d.createDraft p = .ok (d', draft)) :
    ∃ s t, d.draftSpot p = .ok s ∧ draft = s ++ [t] ∧ t ≠ p.name ∧ d.node? draft = none ∧
      d' = d.put draft (.file []) := by
  obtain ⟨s, hs, h⟩ := bind_eq_ok.mp h
  obtain ⟨t, ht, h⟩ := bind_eq_ok.mp h
  obtain ⟨rfl, rfl⟩ := Prod.mk.inj (Except.ok.inj h)
  obtain ⟨hnone, hne⟩ := exists_of_draftFrom ht
  exact ⟨s, t, hs, rfl, hne, hnone, rfl⟩

theorem put_put (d : Disk) (s : Spot) (old new : Node) :
    (d.put s old).put s new = d.put s new := by
  simp only [put, Node.put_put]

theorem remove_put {t : Text} {n : Node} (hs : d.directory? s = .ok s)
    (hn : d.node? (s ++ [t]) = none) : (d.put (s ++ [t]) n).remove (s ++ [t]) = d := by
  have h : (d.root.put (s ++ [t]) n).remove (s ++ [t]) = d.root :=
    Node.remove_put (directory?_eq_ok.mp hs).2 hn
  simp only [put, remove, h]

/-- A removed draft leaves the disk as it was before it. -/
theorem remove_draft (h : d.createDraft p = .ok (d', draft)) (n : Node) :
    (d'.put draft n).remove draft = d := by
  obtain ⟨s, t, hs, rfl, -, hn, rfl⟩ := createDraft_eq_ok h
  rw [put_put, remove_put (draftSpot_eq_ok hs).2.1 hn]

theorem remove_new_draft (h : d.createDraft p = .ok (d', draft)) : d'.remove draft = d := by
  obtain ⟨s, t, hs, rfl, -, hn, rfl⟩ := createDraft_eq_ok h
  exact remove_put (draftSpot_eq_ok hs).2.1 hn

theorem node?_put_beside (d : Disk) (s : Spot) {name name' : Text} (h : name ≠ name') (n : Node) :
    (d.put (s ++ [name]) n).node? (s ++ [name']) = d.node? (s ++ [name']) := by
  apply Node.at?_put_of_apart
  · rw [List.prefix_append_right_inj, List.cons_prefix_cons]
    exact fun hp => h hp.1
  · rw [List.prefix_append_right_inj, List.cons_prefix_cons]
    exact fun hp => h hp.1.symm

/-- A draft that goes to its place is there what the draft was, and otherwise the disk is as it was
before the draft. -/
theorem rename_draft (h : d.createDraft p = .ok (d', draft)) {d'' : Disk}
    (hr : (d'.put draft (.file bytes)).rename draft p = .ok d'') :
    ∃ s, d.draftSpot p = .ok s ∧ (∃ t, d.start p.route = .ok t) ∧ p.names ≠ [] ∧
      p.name ≠ Text.of ".." ∧ (∀ n, d.node? (s ++ [p.name]) = some n → ¬ n.IsDirectory) ∧
      d'' = d.put (s ++ [p.name]) (.file bytes) := by
  have hgone := remove_draft h (.file bytes)
  obtain ⟨s, t, hs, rfl, hne, hn, rfl⟩ := createDraft_eq_ok h
  obtain ⟨hfollow, hdir, -⟩ := draftSpot_eq_ok hs
  rw [put_put] at hr hgone
  have he : (d.put (s ++ [t]) (.file bytes)).Extends d := by
    apply extends_put
    intro n hn'
    rw [hn] at hn'
    cases hn'
  obtain ⟨u, hu, hr₁⟩ := bind_eq_ok.mp hr
  obtain ⟨v, hv, hr₂⟩ := bind_eq_ok.mp hr₁
  obtain ⟨x, hx, hlast⟩ := bind_eq_ok.mp hr₂
  have hstart : d.start p.route = .ok u := hu
  obtain rfl := start_eq_ok hu
  obtain rfl := Except.ok.inj (hv.symm.trans (he.follow hfollow))
  obtain rfl := (directory?_eq_ok.mp hx).1
  rw [node?_put, node?_put_beside d x hne, hgone] at hlast
  refine ⟨x, hs, ⟨_, hstart⟩, ?_⟩
  split at hlast
  · cases hlast
  · rename_i hname
    obtain ⟨hnames, hback⟩ := not_or.mp hname
    split at hlast
    · cases hlast
    · cases hlast
    · rename_i n hfile hnot
      obtain rfl := Option.some.inj hfile
      refine ⟨hnames, hback, ?_, (Except.ok.inj hlast).symm⟩
      rintro m hm ⟨entries, rfl⟩
      exact hnot entries hm

/-- What was renamed to a path is found there. -/
theorem find_renamed (hp : Text.of "." ∉ p.names) (h : d.createDraft p = .ok (d', draft)) {d'' : Disk}
    (hr : (d'.put draft (.file bytes)).rename draft p = .ok d'') :
    ∃ s, d.HasDirectory s ∧ ¬ d.HasDirectory (s ++ [p.name]) ∧
      d''.find p.route = .ok (s ++ [p.name]) ∧ d'' = d.put (s ++ [p.name]) (.file bytes) := by
  obtain ⟨s, hs, ⟨t, ht⟩, hn, hb, hd, rfl⟩ := rename_draft h hr
  have hdir := hasDirectory_iff.mpr (draftSpot_eq_ok hs).2.1
  have hno : ¬ d.HasDirectory (s ++ [p.name]) := by
    rintro ⟨n, hnode, hdir⟩
    exact hd n hnode hdir
  exact ⟨s, hdir, hno, find_put hp hn hb hs ht hd, rfl⟩

theorem read_renamed (hp : Text.of "." ∉ p.names) (h : d.createDraft p = .ok (d', draft)) {d'' : Disk}
    (hr : (d'.put draft (.file bytes)).rename draft p = .ok d'') :
    d''.read p.route = .ok bytes := by
  obtain ⟨s, -, -, hfind, rfl⟩ := find_renamed hp h hr
  refine bind_eq_ok.mpr ⟨_, hfind, ?_⟩
  rw [node?_put]

end Disk

end Syllogism
