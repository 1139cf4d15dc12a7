import Syllogism.Proofs.Notebook
import Syllogism.Serving

/-! A save is made in full or not at all, whatever the disk holds and whatever the path is. -/

namespace Syllogism

namespace Disk

variable {d d' : Disk} {s : Spot} {name : Text} {p : Path} {bytes : Bytes}

theorem Prepares.refl (p : Path) (d : Disk) : Prepares p d d :=
  ⟨rfl, fun _ h => h, fun _ h => .inl h⟩

/-- A file in one of the directories changes none of them. -/
theorem Prepares.put_file (h : Prepares p d d') (hs : d'.HasDirectory s)
    (hno : ¬ d'.HasDirectory (s ++ [name])) :
    Prepares p d (d'.put (s ++ [name]) (.file bytes)) := by
  have he : (d'.put (s ++ [name]) (.file bytes)).Extends d' := by
    apply extends_put
    intro n hn hdir
    exact hno ⟨n, hn, hdir⟩
  refine ⟨h.here, ?_, ?_⟩
  · intro t ht
    exact (hasDirectory_put_file hs hno t).mpr (h.keeps t ht)
  · intro t ht
    obtain hold | ⟨k, hk, hfollow, hmissing⟩ := h.made t ((hasDirectory_put_file hs hno t).mp ht)
    · exact .inl hold
    · exact .inr ⟨k, hk, he.follow hfollow, hmissing⟩

end Disk

namespace Notebook

section

variable [Host] {facts : Facts} {path : Path} {w : World}

theorem exists_perform_load (n : Notebook) (hn : Path.unfit? path.text = none)
    (h : w.disk.Holds path facts) :
    ∃ w', (n.load path).perform w = (.ok { n with facts := facts }, w') := by
  obtain ⟨w', hr⟩ := exists_perform_readFacts n.mode hn h
  exact ⟨w', Act.perform_bind_of_ok hr⟩

theorem notebook_served_save (n : Notebook) (w : World) :
    (Serving.answer (some n) .save w).1.2 = some n := by
  have hn : (Serving.notebookOf (some n)).perform w = (.ok n, w) := rfl
  simp only [Serving.answer, hn, Tool.call, Act.perform_bind]
  rcases n.save.perform w with ⟨f | u, w'⟩
  · rfl
  · rfl

/-- A save changes no directory but such as are missing before the end of its path. If it fails,
every file is as it was. If it does not, the path leads to a file with the facts, which was no
directory before, every other file is as it was, and the facts are opened and loaded from there.
The facts that a notebook has are the same after it. -/
theorem saved_or_untouched (facts : Facts) (t : Text) (w : World) :
    let p := Path.ofText t
    let saved := (writeFacts facts p).perform w
    Disk.Prepares p w.disk saved.2.disk ∧
    ((∃ f, saved.1 = .error f ∧ ∀ s, saved.2.disk.file? s = w.disk.file? s) ∨
      saved.1 = .ok () ∧ Path.unfit? p.text = none ∧
      ∃ s, saved.2.disk.find p.route = .ok s ∧ ¬ w.disk.HasDirectory s ∧
        (∀ u, saved.2.disk.file? u = if u = s then some facts.bytes else w.disk.file? u) ∧
        (∀ l mode, ∃ w', (openAt t l mode).perform saved.2 = (.ok ⟨p, l, mode, facts⟩, w')) ∧
        ∀ n : Notebook, ∃ w', (n.load p).perform saved.2 = (.ok { n with facts := facts }, w')) ∧
    ∀ n : Notebook, (Serving.answer (some n) .save w).1.2 = some n := by
  intro p saved
  obtain ⟨d, hd, hcases⟩ := perform_writeFacts facts p w
  have hprepared : Disk.Prepares p w.disk d ∧ ∀ s, d.file? s = w.disk.file? s := by
    obtain rfl | rfl := hd
    · exact ⟨.refl p _, fun _ => rfl⟩
    · exact Disk.prepares_ensureDirectories w.disk p
  obtain ⟨hprepares, hfiles⟩ := hprepared
  have hserving : ∀ n : Notebook, (Serving.answer (some n) .save w).1.2 = some n :=
    fun n => notebook_served_save n w
  obtain ⟨f, w', hf, hw⟩ | ⟨w', d₁, draft, hok, hn, hg, hdraft, hr, -⟩ := hcases
  · have hsaved : saved = (.error f, w') := hf
    rw [hsaved, hw]
    exact ⟨hprepares, .inl ⟨f, rfl, hfiles⟩, hserving⟩
  · have hsaved : saved = (.ok (), w') := hok
    have hholds : w'.disk.Holds p facts :=
      Disk.holds_of_read hg (Disk.read_renamed (Path.dot_notMem_ofText t) hdraft hr)
    obtain ⟨s, hs, hno, hfind, hput⟩ := Disk.find_renamed (Path.dot_notMem_ofText t) hdraft hr
    rw [hsaved]
    refine ⟨hput ▸ hprepares.put_file hs hno, .inr ⟨rfl, hn, _, hfind, ?_, ?_, ?_, ?_⟩, hserving⟩
    · exact fun h => hno (hprepares.keeps _ h)
    · intro u
      rw [hput, Disk.file?_put_file hs hno, hfiles]
    · exact fun l mode => exists_perform_openAt l mode hn hholds
    · exact fun n => exists_perform_load n hn hholds

end

section

open scoped Host

/-- Beside a file there is a place for facts, but below it there is none. -/
theorem saved_or_untouched_beside :
    let facts : Facts := ⟨[("GATTO", ["felino"])], by decide⟩
    let w := World.on (Disk.empty.put ["a"] (.file [0x61]))
    (∃ w', (writeFacts facts (Path.ofText "b")).perform w = (.ok (), w') ∧
      w'.disk.file? ["b"] = some facts.bytes ∧ w'.disk.file? ["a"] = some [0x61]) ∧
    ∃ f w', (writeFacts facts (Path.ofText "a/b")).perform w = (.error f, w') ∧
      ∀ s, w'.disk.file? s = w.disk.file? s := by
  intro facts w
  constructor
  · have hok : ((writeFacts facts (Path.ofText "b")).perform w).1 = .ok () := by decide +kernel
    obtain ⟨w', hw⟩ := Act.exists_perform hok
    have hfind : (((writeFacts facts (Path.ofText "b")).perform w).2.disk.find
        (Path.ofText "b").route).toOption = some [Text.of "b"] := by decide +kernel
    have hold : w.disk.file? ["a"] = some [0x61] := by decide +kernel
    have hsaved := saved_or_untouched facts "b" w
    simp only [hw] at hsaved hfind
    obtain ⟨-, ⟨f, hf, -⟩ | ⟨-, -, s, hs, -, hfiles, -⟩, -⟩ := hsaved
    · cases hf
    · rw [hs] at hfind
      obtain rfl := Option.some.inj hfind
      refine ⟨w', hw, (hfiles _).trans (if_pos rfl), ?_⟩
      rw [hfiles, if_neg (by decide), hold]
  · have herror : ((writeFacts facts (Path.ofText "a/b")).perform w).1.toOption = none := by
      decide +kernel
    have hsaved := saved_or_untouched facts "a/b" w
    rcases hw : (writeFacts facts (Path.ofText "a/b")).perform w with ⟨e, w'⟩
    simp only [hw] at hsaved herror
    obtain ⟨-, ⟨f, rfl, hfiles⟩ | ⟨rfl, -⟩, -⟩ := hsaved
    · exact ⟨f, w', rfl, hfiles⟩
    · cases herror

end

end Notebook

end Syllogism
