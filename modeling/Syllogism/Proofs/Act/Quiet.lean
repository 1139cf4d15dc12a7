import Syllogism.Proofs.Act

/-! Steps that print nothing. What was printed before is nothing to them: they do the same whatever
it was. -/

namespace Syllogism.Act

variable {α β : Type} {a : Act α} {f : α → Act β} {w w' : World}

def Quiet (a : Act α) : Prop :=
  ∀ w t, a.perform { w with out := t } = ((a.perform w).1, { (a.perform w).2 with out := t })

theorem Quiet.out {e : Except Failure α} (h : Quiet a) (ha : a.perform w = (e, w')) :
    w'.out = w.out := by
  have hq := congrArg (fun r => r.2.out) (h w w.out)
  rwa [ha] at hq

theorem Quiet.perform {e : Except Failure α} (h : Quiet a) (ha : a.perform w = (e, w')) (t : Text) :
    a.perform { w with out := t } = (e, { w' with out := t }) := by
  rw [h w t, ha]

theorem quiet_pure (x : α) : Quiet (pure x : Act α) := fun _ _ => rfl

theorem quiet_fail (failure : Failure) : Quiet (fail failure : Act α) := fun _ _ => rfl

theorem quiet_setDisk (d : Disk) : Quiet (setDisk d) := fun _ _ => rfl

theorem quiet_noteAll (events : List Event) : Quiet (noteAll events) := fun _ _ => rfl

theorem quiet_note (e : Event) : Quiet (note e) := fun _ _ => rfl

theorem quiet_submit (t : Text) : Quiet (submit t) := by
  rw [submit]
  cases Path.unfit? t with
  | none => exact quiet_pure ()
  | some unfit => exact quiet_fail _

theorem quiet_granted (names : List Text) (e : Except Disk.Refusal α) :
    Quiet (granted names e) := by
  cases e with
  | error refusal => exact quiet_fail _
  | ok x => exact quiet_pure x

theorem Quiet.bind (h : Quiet a) (hf : ∀ x, Quiet (f x)) : Quiet (a >>= f) := by
  intro w t
  rw [perform_bind, perform_bind, h w t]
  rcases a.perform w with ⟨failure | x, w₁⟩
  · rfl
  · exact hf x w₁ t

theorem quiet_disk_bind {f : Disk → Act β} (h : ∀ d, Quiet (f d)) : Quiet (disk >>= f) :=
  fun w t => h w.disk w t

theorem quiet_guard {p : Prop} [Decidable p] {failure : Failure} {k : Unit → Act β}
    (hk : Quiet (k ())) : Quiet (if p then fail failure >>= k else k ()) := by
  split
  · exact (quiet_fail failure).bind fun _ => hk
  · exact hk

theorem Quiet.clearing {clear : Act Unit} (h : Quiet a) (hc : Quiet clear) :
    Quiet (clearing a clear) := by
  intro w t
  rw [perform_clearing, perform_clearing, h w t]
  rcases a.perform w with ⟨failure | x, w₁⟩
  · exact hc.bind (fun _ => quiet_fail failure) w₁ t
  · rfl

end Syllogism.Act
