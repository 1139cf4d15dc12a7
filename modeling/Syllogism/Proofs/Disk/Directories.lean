import Syllogism.Proofs.Disk.Written

/-! Which files and which directories a disk has, and what making directories adds to them. -/

namespace Syllogism.Disk

/-- The bytes of the file at a spot. -/
def file? (d : Disk) (s : Spot) : Option Bytes :=
  match d.node? s with
  | some (.file bytes) => some bytes
  | _ => none

def HasDirectory (d : Disk) (s : Spot) : Prop := ∃ n, d.node? s = some n ∧ n.IsDirectory

/-- Where the names of a path start. -/
def origin (d : Disk) (p : Path) : Spot := if p.route.fromRoot then [] else d.here

/-- The directories of a disk, and besides them only such as were missing on the way to the end of a
path. -/
structure Prepares (p : Path) (d d' : Disk) : Prop where
  here : d'.here = d.here
  keeps : ∀ s, d.HasDirectory s → d'.HasDirectory s
  made : ∀ s, d'.HasDirectory s → d.HasDirectory s ∨
    ∃ k < p.names.length, d'.follow (d.origin p) (p.names.take k) = .ok s ∧
      d.follow (d.origin p) (p.names.take k) = .error .missing

variable {d d' : Disk} {s t : Spot} {name : Text} {names : List Text} {p : Path} {bytes : Bytes}

theorem hasDirectory_iff : d.HasDirectory s ↔ d.directory? s = .ok s := by
  rw [directory?_eq_ok]
  exact ⟨fun h => ⟨rfl, h⟩, fun h => h.2⟩

theorem file?_of_hasDirectory (h : d.HasDirectory s) : d.file? s = none := by
  obtain ⟨n, hn, entries, rfl⟩ := h
  rw [file?, hn]

theorem not_hasDirectory_of_node? (h : d.node? s = none) : ¬ d.HasDirectory s := by
  rintro ⟨n, hn, -⟩
  rw [h] at hn
  cases hn

theorem hasDirectory_congr (h : d'.node? t = d.node? t) : d'.HasDirectory t ↔ d.HasDirectory t := by
  rw [HasDirectory, HasDirectory, h]

theorem file?_congr (h : d'.node? t = d.node? t) : d'.file? t = d.file? t := by
  rw [file?, file?, h]

/-- Before a directory there are directories only. -/
theorem hasDirectory_of_append (h : d.HasDirectory (s ++ t)) : d.HasDirectory s := by
  obtain ⟨n, hn, hdir⟩ := h
  rw [node?, Node.at?_append, Option.bind_eq_some_iff] at hn
  obtain ⟨m, hm, hn⟩ := hn
  refine ⟨m, hm, ?_⟩
  cases m with
  | directory entries => exact ⟨entries, rfl⟩
  | file bytes =>
    cases t with
    | nil =>
      obtain rfl := Option.some.inj hn
      exact hdir
    | cons name t => cases hn

/-- What is put in a directory changes nothing but what lies at its spot and below. -/
theorem node?_put_cases (hs : d.HasDirectory s) (name : Text) (new : Node) (t : Spot) :
    (∃ rest, t = s ++ [name] ++ rest ∧ (d.put (s ++ [name]) new).node? t = new.at? rest) ∨
    t ≠ s ++ [name] ∧ ((d.HasDirectory t ∧ (d.put (s ++ [name]) new).HasDirectory t) ∨
      (d.put (s ++ [name]) new).node? t = d.node? t) := by
  by_cases hst : s ++ [name] <+: t
  · obtain ⟨rest, rfl⟩ := hst
    exact .inl ⟨rest, rfl, Node.at?_put_append d.root (s ++ [name]) rest new⟩
  · have hne : t ≠ s ++ [name] := fun h => hst (h ▸ List.prefix_rfl)
    refine .inr ⟨hne, ?_⟩
    by_cases hts : t <+: s ++ [name]
    · obtain ⟨rest, hrest⟩ := hts
      have hprefix : t <+: s := by
        obtain h | h := List.prefix_concat_iff.mp ⟨rest, hrest⟩
        · exact absurd h hne
        · exact h
      obtain ⟨more, rfl⟩ := hprefix
      refine .inl ⟨hasDirectory_of_append hs, ?_⟩
      obtain ⟨next, last, hlast⟩ := List.exists_cons_of_ne_nil (show more ++ [name] ≠ [] by simp)
      have h := Node.at?_put_before d.root t next last new
      rw [← hlast, ← List.append_assoc] at h
      exact h
    · exact .inr (Node.at?_put_of_apart d.root new hst hts)

/-- Where no directory lay nothing lies further on. -/
theorem node?_below (h : ¬ d.HasDirectory s) (name : Text) (rest : Spot) :
    d.node? (s ++ name :: rest) = none := by
  rw [node?, Node.at?_append, Option.bind_eq_none_iff]
  intro m hm
  cases m with
  | file bytes => rfl
  | directory entries => exact absurd ⟨_, hm, entries, rfl⟩ h

theorem file?_put_file (hs : d.HasDirectory s) (hno : ¬ d.HasDirectory (s ++ [name])) (t : Spot) :
    (d.put (s ++ [name]) (.file bytes)).file? t =
      if t = s ++ [name] then some bytes else d.file? t := by
  obtain ⟨rest, rfl, h⟩ | ⟨hne, ⟨h, h'⟩ | h⟩ := node?_put_cases hs name (.file bytes) t
  · cases rest with
    | nil =>
      rw [List.append_nil] at h ⊢
      rw [if_pos rfl, file?, h]
      rfl
    | cons next rest =>
      rw [if_neg (by simp), file?, h, file?, node?_below hno]
      rfl
  · rw [if_neg hne, file?_of_hasDirectory h, file?_of_hasDirectory h']
  · rw [if_neg hne, file?_congr h]

theorem hasDirectory_put_file (hs : d.HasDirectory s) (hno : ¬ d.HasDirectory (s ++ [name]))
    (t : Spot) : (d.put (s ++ [name]) (.file bytes)).HasDirectory t ↔ d.HasDirectory t := by
  obtain ⟨rest, rfl, h⟩ | ⟨-, ⟨h, h'⟩ | h⟩ := node?_put_cases hs name (.file bytes) t
  · have hnew : ¬ (d.put (s ++ [name]) (.file bytes)).HasDirectory (s ++ [name] ++ rest) := by
      rintro ⟨n, hn, entries, rfl⟩
      rw [h] at hn
      cases rest with
      | nil => cases hn
      | cons next rest => cases hn
    have hold : ¬ d.HasDirectory (s ++ [name] ++ rest) :=
      fun hdir => hno (hasDirectory_of_append hdir)
    exact iff_of_false hnew hold
  · exact iff_of_true h' h
  · exact hasDirectory_congr h

theorem put_directory (hs : d.HasDirectory s) (hno : d.node? (s ++ [name]) = none) (t : Spot) :
    (d.put (s ++ [name]) (.directory [])).file? t = d.file? t ∧
    ((d.put (s ++ [name]) (.directory [])).HasDirectory t ↔ d.HasDirectory t ∨ t = s ++ [name]) := by
  obtain ⟨rest, rfl, h⟩ | ⟨hne, ⟨h, h'⟩ | h⟩ := node?_put_cases hs name (.directory []) t
  · cases rest with
    | nil =>
      rw [List.append_nil] at h ⊢
      have hdir : (d.put (s ++ [name]) (.directory [])).HasDirectory (s ++ [name]) :=
        ⟨_, h, [], rfl⟩
      refine ⟨?_, iff_of_true hdir (.inr rfl)⟩
      rw [file?_of_hasDirectory hdir, file?, hno]
    | cons next rest =>
      have hold := node?_below (not_hasDirectory_of_node? hno) next rest
      have hsame := h.trans (show _ = d.node? (s ++ [name] ++ next :: rest) from hold.symm)
      refine ⟨file?_congr hsame, (hasDirectory_congr hsame).trans ?_⟩
      exact ⟨.inl, fun h => h.resolve_right (by simp)⟩
  · exact ⟨by rw [file?_of_hasDirectory h, file?_of_hasDirectory h'], iff_of_true h' (.inl h)⟩
  · refine ⟨file?_congr h, (hasDirectory_congr h).trans ?_⟩
    exact ⟨.inl, fun h => h.resolve_right hne⟩

/-! Making directories -/

/-- The same files, and at least the directories. -/
structure Grows (d d' : Disk) : Prop where
  here : d'.here = d.here
  files : ∀ s, d'.file? s = d.file? s
  keeps : ∀ s, d.HasDirectory s → d'.HasDirectory s

theorem Grows.refl (d : Disk) : Grows d d := ⟨rfl, fun _ => rfl, fun _ h => h⟩

theorem Grows.trans {d₁ d₂ d₃ : Disk} (h : Grows d₁ d₂) (h' : Grows d₂ d₃) : Grows d₁ d₃ :=
  ⟨h'.here.trans h.here, fun s => (h'.files s).trans (h.files s),
    fun s hs => h'.keeps s (h.keeps s hs)⟩

theorem node?_of_file? (h : d.file? s = some bytes) : d.node? s = some (.file bytes) := by
  rw [file?] at h
  split at h
  · rename_i hn
    rw [hn, Option.some.inj h]
  · cases h

theorem Grows.extends (h : Grows d d') : d'.Extends d := by
  intro t n hn
  cases n with
  | file bytes =>
    have hf : d'.file? t = some bytes := by rw [h.files, file?, hn]
    exact ⟨_, node?_of_file? hf, fun hdir => by obtain ⟨_, hdir⟩ := hdir; cases hdir⟩
  | directory entries =>
    obtain ⟨n', hn', hdir⟩ := h.keeps t ⟨_, hn, entries, rfl⟩
    exact ⟨n', hn', fun _ => hdir⟩

theorem grows_put_directory (hs : d.HasDirectory s) (hno : d.node? (s ++ [name]) = none) :
    Grows d (d.put (s ++ [name]) (.directory [])) :=
  ⟨rfl, fun t => (put_directory hs hno t).1, fun t ht => (put_directory hs hno t).2.mpr (.inl ht)⟩

theorem step_eq_missing (h : d.step s name = .error .missing) :
    d.node? (s ++ [name]) = none ∧ nameFits name = true ∧ name ≠ Text.of "." ∧
      name ≠ Text.of ".." := by
  unfold step at h
  split at h
  · cases h
  · rename_i h₁
    split at h
    · cases h
    · rename_i h₂
      split at h
      · cases h
      · rename_i hf
        split at h
        · rename_i hn
          exact ⟨Option.isNone_iff_eq_none.mp hn, by simpa using hf, h₁, h₂⟩
        · cases h

theorem occupant_eq_ok (h : d.occupant s = .ok t) : t = s ∧ d.HasDirectory s := by
  rw [occupant, mapError_eq_ok] at h
  exact directory?_eq_ok.mp h

/-- A step to a directory adds no more than this one. -/
theorem enter_eq_ok (hs : d.HasDirectory s) (h : d.enter s name = .ok (d', t)) :
    Grows d d' ∧ d'.HasDirectory t ∧ d'.step s name = .ok t ∧
      ∀ u, d'.HasDirectory u → d.HasDirectory u ∨ u = t := by
  rw [enter] at h
  split at h
  · rename_i u hu
    obtain ⟨v, ho, hv⟩ := map_eq_ok.mp h
    obtain ⟨rfl, rfl⟩ := Prod.mk.inj hv
    obtain ⟨rfl, hdir⟩ := occupant_eq_ok ho
    exact ⟨.refl d, hdir, hu, fun _ h => .inl h⟩
  · rename_i hm
    obtain ⟨hno, hfit, hdot, hback⟩ := step_eq_missing hm
    obtain ⟨rfl, rfl⟩ := Prod.mk.inj (Except.ok.inj h)
    have hput := node?_put d (s ++ [name]) (.directory [])
    refine ⟨grows_put_directory hs hno, ⟨_, hput, [], rfl⟩, ?_, ?_⟩
    · exact step_eq_ok_append hfit hdot hback hput
    · intro u hu
      exact (put_directory hs hno u).2.mp hu
  · cases h

/-- Steps to directories, from one on, add only directories that one of these steps leads to. -/
theorem grows_enterAll (hs : d.HasDirectory s) (names : List Text) :
    Grows d (d.enterAll s names).2 ∧ ∀ t, (d.enterAll s names).2.HasDirectory t →
      d.HasDirectory t ∨ ∃ k < names.length,
        (d.enterAll s names).2.follow s (names.take (k + 1)) = .ok t := by
  induction names generalizing d s with
  | nil => exact ⟨.refl d, fun _ h => .inl h⟩
  | cons name names ih =>
    rw [enterAll]
    cases he : d.enter s name with
    | error refusal => exact ⟨.refl d, fun _ h => .inl h⟩
    | ok next =>
      obtain ⟨d₁, s₁⟩ := next
      obtain ⟨hg, hs₁, hstep, hnew⟩ := enter_eq_ok hs he
      obtain ⟨hrest, hmade⟩ := ih hs₁
      refine ⟨hg.trans hrest, ?_⟩
      have hfollow : ∀ more, (d₁.enterAll s₁ names).2.follow s (name :: more) =
          (d₁.enterAll s₁ names).2.follow s₁ more := by
        intro more
        have hdir := hrest.extends.directory? (hasDirectory_iff.mp (hg.keeps s hs))
        have hstep' := hrest.extends.step hstep
        simp only [follow, hdir, hstep', bind, Except.bind]
      intro t ht
      obtain h | ⟨k, hk, h⟩ := hmade t ht
      · obtain h | rfl := hnew t h
        · exact .inl h
        · exact .inr ⟨0, by simp, by rw [List.take_succ_cons, hfollow]; rfl⟩
      · refine .inr ⟨k + 1, by simpa using hk, ?_⟩
        rw [List.take_succ_cons, hfollow, h]

/-- What is lacking ends the names, and with its first name they lead nowhere. -/
theorem lackingFrom_spec (d : Disk) (s : Spot) (names : List Text) :
    ∃ before, names = before ++ d.lackingFrom s names ∧
      ∀ k, k < (d.lackingFrom s names).length →
        d.follow s (before ++ (d.lackingFrom s names).take (k + 1)) = .error .missing := by
  induction names generalizing s with
  | nil => exact ⟨[], rfl, fun k hk => by cases hk⟩
  | cons name names ih =>
    rw [lackingFrom]
    cases hd : (d.directory? s).bind (d.step · name) with
    | ok s' =>
      obtain ⟨before, hbefore, hlack⟩ := ih s'
      refine ⟨name :: before, by rw [List.cons_append, ← hbefore], ?_⟩
      intro k hk
      have h := hlack k hk
      obtain ⟨u, hu, hstep⟩ := bind_eq_ok.mp hd
      simp only [List.cons_append, follow, hu, hstep, bind, Except.bind]
      exact h
    | error refusal =>
      have hfollow : ∀ more, d.follow s (name :: more) = .error refusal := by
        intro more
        cases hu : d.directory? s with
        | error r =>
          rw [hu] at hd
          obtain rfl := Except.error.inj hd
          simp only [follow, hu, bind, Except.bind]
        | ok u =>
          rw [hu] at hd
          have hstep : d.step u name = .error refusal := hd
          simp only [follow, hu, hstep, bind, Except.bind]
      cases refusal with
      | missing => exact ⟨[], rfl, fun k _ => hfollow _⟩
      | _ => exact ⟨name :: names, by rw [List.append_nil], fun k hk => by cases hk⟩

theorem lacking_spec (d : Disk) (p : Path) :
    ∃ before, p.names = before ++ d.lacking p ∧
      ∀ k, k < (d.lacking p).length →
        d.follow (d.origin p) (before ++ (d.lacking p).take (k + 1)) = .error .missing := by
  rw [lacking]
  cases hs : d.start p.route with
  | error refusal => exact ⟨p.names, by simp, fun k hk => by cases hk⟩
  | ok s =>
    obtain rfl := start_eq_ok hs
    exact lackingFrom_spec d (d.origin p) p.names

/-- Whether or not a path gets its directories in the end, those that are made lay on the way and
were missing. -/
theorem ensureDirectories_spec (d : Disk) (p : Path) :
    Grows d (d.ensureDirectories p).2 ∧
    ∀ t, (d.ensureDirectories p).2.HasDirectory t → d.HasDirectory t ∨
      ∃ k ≤ p.names.length,
        (d.ensureDirectories p).2.follow (d.origin p) (p.names.take k) = .ok t ∧
        d.follow (d.origin p) (p.names.take k) = .error .missing := by
  rw [ensureDirectories]
  cases hlast : d.lastThere p with
  | error refusal => exact ⟨.refl d, fun _ h => .inl h⟩
  | ok s =>
    obtain ⟨before, hnames, hlack⟩ := lacking_spec d p
    obtain ⟨u, hu, hlast⟩ := bind_eq_ok.mp hlast
    obtain ⟨v, hv, ho⟩ := bind_eq_ok.mp hlast
    obtain rfl := start_eq_ok hu
    obtain ⟨rfl, hs⟩ := occupant_eq_ok ho
    obtain ⟨hg, hmade⟩ := grows_enterAll hs (d.lacking p)
    refine ⟨hg, ?_⟩
    have hbefore : p.names.take (p.names.length - (d.lacking p).length) = before := by
      have hlength := congrArg List.length hnames
      rw [List.length_append] at hlength
      rw [show p.names.length - (d.lacking p).length = before.length by omega, hnames,
        List.take_left]
    rw [hbefore] at hv
    intro t ht
    obtain h | ⟨k, hk, h⟩ := hmade t ht
    · exact .inl h
    · have htake : p.names.take (before.length + (k + 1)) =
          before ++ (d.lacking p).take (k + 1) := by
        conv => lhs; rw [hnames]
        exact List.take_length_add_append (k + 1)
      have hlength := congrArg List.length hnames
      rw [List.length_append] at hlength
      refine .inr ⟨before.length + (k + 1), by omega, ?_, ?_⟩
      · rw [htake, follow_append]
        exact bind_eq_ok.mpr ⟨_, hg.extends.follow hv, h⟩
      · rw [htake]
        exact hlack k hk

/-- The directories before the end of a path are made for it. -/
theorem prepares_ensureDirectories (d : Disk) (p : Path) :
    Prepares p d (d.ensureDirectories p.parent).2 ∧
      ∀ s, (d.ensureDirectories p.parent).2.file? s = d.file? s := by
  obtain ⟨hg, hmade⟩ := ensureDirectories_spec d p.parent
  refine ⟨⟨hg.here, hg.keeps, ?_⟩, hg.files⟩
  intro s hs
  obtain h | ⟨k, hk, h, hmissing⟩ := hmade s hs
  · exact .inl h
  · have hlength : p.parent.names.length = p.names.length - 1 := List.length_dropLast
    have htake : p.parent.names.take k = p.names.take k := by
      have hmin : min k (p.names.length - 1) = k := by omega
      rw [Path.parent, List.dropLast_eq_take, List.take_take, hmin]
    rw [htake] at h hmissing
    have hne : p.names ≠ [] := by
      intro hnil
      rw [hnil, List.take_nil] at hmissing
      cases hmissing
    have hpos := List.length_pos_iff.mpr hne
    exact .inr ⟨k, by omega, h, hmissing⟩

end Syllogism.Disk
