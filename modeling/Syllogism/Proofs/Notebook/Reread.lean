import Syllogism.Proofs.Notebook

/-! What is read after a save: at its path the facts, and anywhere else what was there before. Two
routes can lead to the same file, so another route may read the facts, too. -/

namespace Syllogism

namespace Disk

variable {d d' : Disk} {r : Route} {s : Spot} {name : Text} {bytes old : Bytes}

theorem read_eq_ok : d.read r = .ok bytes ↔ ∃ s, d.find r = .ok s ∧ d.file? s = some bytes := by
  rw [read, bind_eq_ok]
  refine exists_congr fun s => and_congr_right fun _ => ?_
  rw [file?]
  cases d.node? s with
  | none => simp
  | some n => cases n <;> simp

theorem Extends.find (he : d'.Extends d) (hh : d'.here = d.here) (h : d.find r = .ok s) :
    d'.find r = .ok s := by
  obtain ⟨t, ht, hf⟩ := bind_eq_ok.mp h
  have ht' : d'.start r = .ok t := by rw [start, hh, ← start, ht]
  exact bind_eq_ok.mpr ⟨t, ht', he.follow hf⟩

theorem Grows.read (h : Grows d d') (hr : d.read r = .ok bytes) : d'.read r = .ok bytes := by
  obtain ⟨s, hs, hf⟩ := read_eq_ok.mp hr
  exact read_eq_ok.mpr ⟨s, h.extends.find h.here hs, (h.files s).trans hf⟩

theorem read_put_file (hs : d.HasDirectory s) (hno : ¬ d.HasDirectory (s ++ [name]))
    (h : d.read r = .ok old) :
    (d.put (s ++ [name]) (.file bytes)).read r = .ok old ∨
      (d.put (s ++ [name]) (.file bytes)).read r = .ok bytes := by
  obtain ⟨t, ht, hf⟩ := read_eq_ok.mp h
  have he : (d.put (s ++ [name]) (.file bytes)).Extends d :=
    extends_put fun n hn hdir => hno ⟨n, hn, hdir⟩
  have hput : (d.put (s ++ [name]) (.file bytes)).file? t = _ := file?_put_file hs hno t
  split at hput
  · exact .inr (read_eq_ok.mpr ⟨t, he.find rfl ht, hput⟩)
  · exact .inl (read_eq_ok.mpr ⟨t, he.find rfl ht, hput.trans hf⟩)

end Disk

namespace Notebook

variable [Host] {n : Notebook} {facts : Facts} {path : Path} {r : Route} {old : Bytes} {w w' : World}
  {u : Unit}

theorem of_perform_writeFacts_read (hp : Text.of "." ∉ path.names)
    (h : (writeFacts facts path).perform w = (.ok u, w')) :
    facts.isWhole ∧ w'.disk.read path.route = .ok facts.bytes ∧
      ∀ r old, w.disk.read r = .ok old →
        w'.disk.read r = .ok old ∨ w'.disk.read r = .ok facts.bytes := by
  obtain ⟨d, hd, ⟨f, w₁, hf, -⟩ | ⟨w₁, d₁, draft, hok, -, hg, hdraft, hr, -⟩⟩ :=
    perform_writeFacts facts path w
  · rw [hf] at h
    cases h
  · rw [hok] at h
    obtain ⟨-, rfl⟩ := Prod.mk.inj h
    have hgrows : Disk.Grows w.disk d := by
      obtain rfl | rfl := hd
      · exact .refl w.disk
      · exact (Disk.ensureDirectories_spec w.disk path.parent).1
    obtain ⟨s, hs, hno, -, hput⟩ := Disk.find_renamed hp hdraft hr
    refine ⟨(Facts.gap?_eq_none_iff facts).mp hg, Disk.read_renamed hp hdraft hr, ?_⟩
    intro r old hread
    rw [hput]
    exact Disk.read_put_file hs hno (hgrows.read hread)

end Notebook

end Syllogism
