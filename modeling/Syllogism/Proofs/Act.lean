import Syllogism.Act
import Syllogism.Proofs.Text.Utf8

/-! What a step does to the world, mostly for steps that succeed, and how a step can end. -/

namespace Syllogism.Act

variable {α β : Type} {a : Act α} {f : α → Act β} {w w' : World} {b : β}

theorem perform_bind (a : Act α) (f : α → Act β) (w : World) :
    (a >>= f).perform w = match a.perform w with
      | (.ok x, w₁) => (f x).perform w₁
      | (.error failure, w₁) => (.error failure, w₁) := by
  show (match a.perform w with | (x, w₁) => ExceptT.bindCont f x w₁) = _
  rcases a.perform w with ⟨x | x, w₁⟩ <;> rfl

theorem perform_bind_of_ok {x : α} {w₁ : World} (h : a.perform w = (.ok x, w₁)) :
    (a >>= f).perform w = (f x).perform w₁ := by
  rw [perform_bind, h]

theorem perform_tryCatch (a : Act α) (handle : Failure → Act α) (w : World) :
    (tryCatch a handle).perform w = match a.perform w with
      | (.ok x, w₁) => (.ok x, w₁)
      | (.error failure, w₁) => (handle failure).perform w₁ := by
  unfold perform
  simp only [tryCatch, tryCatchThe, MonadExceptOf.tryCatch, ExceptT.tryCatch, ExceptT.run,
    ExceptT.mk, StateT.run, bind, StateT.bind]
  rcases a w with ⟨failure | x, w₁⟩ <;> rfl

theorem perform_clearing (a : Act α) (clear : Act Unit) (w : World) :
    (clearing a clear).perform w = match a.perform w with
      | (.ok x, w₁) => (.ok x, w₁)
      | (.error failure, w₁) => (clear >>= fun _ => fail failure).perform w₁ :=
  perform_tryCatch a _ w

theorem perform_disk_bind (f : Disk → Act β) (w : World) :
    (disk >>= f).perform w = (f w.disk).perform w := rfl

theorem perform_get_bind (f : World → Act β) (w : World) :
    ((get : Act World) >>= f).perform w = (f w).perform w := rfl

theorem perform_guard {p : Prop} [Decidable p] (failure : Failure) (k : Unit → Act β) (w : World) :
    (if p then fail failure >>= k else k ()).perform w =
      if p then (.error failure, w) else (k ()).perform w := by
  split <;> rfl

theorem perform_granted (names : List Text) (e : Except Disk.Refusal α) (w : World) :
    (granted names e).perform w = (e.mapError fun refusal => .refused refusal names, w) := by
  cases e <;> rfl

theorem perform_submit_bind (t : Text) (f : Unit → Act β) (w : World) :
    (submit t >>= f).perform w = match Path.unfit? t with
      | none => (f ()).perform w
      | some unfit => (.error (.ofUnfit unfit), w) := by
  rw [submit]
  cases Path.unfit? t <;> rfl

/-- Of two steps that succeed one after the other, each succeeds. -/
theorem of_perform_bind (h : (a >>= f).perform w = (.ok b, w')) :
    ∃ x w₁, a.perform w = (.ok x, w₁) ∧ (f x).perform w₁ = (.ok b, w') := by
  rw [perform_bind] at h
  rcases ha : a.perform w with ⟨x | x, w₁⟩
  · rw [ha] at h
    cases h
  · rw [ha] at h
    exact ⟨x, w₁, rfl, h⟩

theorem exists_perform {x : α} (h : (a.perform w).1 = .ok x) : ∃ w', a.perform w = (.ok x, w') :=
  ⟨(a.perform w).2, Prod.ext h rfl⟩

theorem exists_perform_of_isSome (h : (a.perform w).1.toOption.isSome) :
    ∃ x w', a.perform w = (.ok x, w') := by
  rcases ha : a.perform w with ⟨failure | x, w'⟩
  · rw [ha] at h
    cases h
  · exact ⟨x, w', rfl⟩

theorem of_perform_pure {x y : α} (h : (pure x : Act α).perform w = (.ok y, w')) :
    x = y ∧ w = w' := by
  cases h
  exact ⟨rfl, rfl⟩

theorem of_perform_disk {d : Disk} (h : disk.perform w = (.ok d, w')) : d = w.disk ∧ w = w' := by
  cases h
  exact ⟨rfl, rfl⟩

theorem perform_print [Host] (t : Text) (w : World) :
    (print t).perform w = match Host.unprintable? t with
      | none => (.ok (), { w with out := w.out ++ t })
      | some gap => (.error (.halves gap), w) := by
  rw [print]
  cases Host.unprintable? t <;> rfl

/-- Every stream takes a text without halves. -/
theorem unprintable?_eq_none [Host] {t : Text} (h : t.isWhole) : Host.unprintable? t = none := by
  rw [Host.unprintable?, Utf8.refused?_eq_none_iff]
  intro n hn
  exact absurd (List.all_eq_true.mp h _ hn) (by simp [CodePoint.isHalf])

/-- What is printed is the whole text. -/
theorem of_perform_print [Host] {t : Text} {u : Unit} (h : (print t).perform w = (.ok u, w')) :
    Host.unprintable? t = none ∧ w' = { w with out := w.out ++ t } := by
  rw [perform_print] at h
  split at h
  · rename_i hg
    cases h
    exact ⟨hg, rfl⟩
  · cases h

theorem of_perform_noteAll {events : List Event} {u : Unit}
    (h : (noteAll events).perform w = (.ok u, w')) :
    w'.disk = w.disk ∧ w'.notices = w.notices ++ events.map .event := by
  cases h
  exact ⟨rfl, rfl⟩

theorem of_perform_submit_bind {t : Text} {f : Unit → Act β}
    (h : (submit t >>= f).perform w = (.ok b, w')) :
    Path.unfit? t = none ∧ (f ()).perform w = (.ok b, w') := by
  rw [perform_submit_bind] at h
  split at h
  · rename_i hu
    exact ⟨hu, h⟩
  · cases h

theorem of_perform_granted {names : List Text} {e : Except Disk.Refusal α} {x : α}
    (h : (granted names e).perform w = (.ok x, w')) : e = .ok x ∧ w = w' := by
  cases e with
  | error refusal => cases h
  | ok y =>
    cases h
    exact ⟨rfl, rfl⟩

theorem not_perform_fail {failure : Failure} {x : α} (h : (fail failure).perform w = (.ok x, w')) :
    False := by
  cases h

/-! The ends of a step -/

/-- In any world, the step ends with a result that `Q` allows or with a failure that `P` allows. -/
def Ends (Q : α → Prop) (P : Failure → Prop) (a : Act α) : Prop :=
  ∀ w, (∃ x w', a.perform w = (.ok x, w') ∧ Q x) ∨
    ∃ failure w', a.perform w = (.error failure, w') ∧ P failure

section Ends

variable {Q : α → Prop} {R : β → Prop} {P P' : Failure → Prop}

theorem ends_pure {x : α} (h : Q x) : Ends Q P (pure x) := fun w => .inl ⟨x, w, rfl, h⟩

theorem ends_fail {failure : Failure} (h : P failure) : Ends Q P (fail failure) :=
  fun w => .inr ⟨failure, w, rfl, h⟩

theorem ends_modify (g : World → World) : Ends (fun _ => True) P (modify g) :=
  fun w => .inl ⟨(), g w, rfl, trivial⟩

theorem ends_granted {names : List Text} {e : Except Disk.Refusal α}
    (h : ∀ refusal, P (.refused refusal names)) : Ends (fun _ => True) P (granted names e) := by
  cases e with
  | error refusal => exact ends_fail (h refusal)
  | ok x => exact ends_pure trivial

theorem Ends.imp (h : Ends Q P a) (hp : ∀ failure, P failure → P' failure) : Ends Q P' a := by
  intro w
  obtain hok | ⟨failure, w₁, ha, hf⟩ := h w
  · exact .inl hok
  · exact .inr ⟨failure, w₁, ha, hp failure hf⟩

theorem Ends.bind (h : Ends Q P a) (hf : ∀ x, Q x → Ends R P (f x)) : Ends R P (a >>= f) := by
  intro w
  rw [perform_bind]
  obtain ⟨x, w₁, ha, hx⟩ | ⟨failure, w₁, ha, hp⟩ := h w <;> rw [ha]
  · exact hf x hx w₁
  · exact .inr ⟨failure, w₁, rfl, hp⟩

theorem ends_disk_bind {f : Disk → Act β} (h : ∀ d, Ends R P (f d)) : Ends R P (disk >>= f) :=
  fun w => h w.disk w

theorem ends_print [Host] {t : Text}
    (h : ∀ gap, Host.unprintable? t = some gap → P (.halves gap)) :
    Ends (fun _ => True) P (print t) := by
  rw [print]
  cases hg : Host.unprintable? t with
  | none => exact ends_modify _
  | some gap => exact ends_fail (h gap hg)

theorem ends_submit {t : Text} (h : ∀ unfit, Path.unfit? t = some unfit → P (.ofUnfit unfit)) :
    Ends (fun _ => True) P (submit t) := by
  rw [submit]
  cases hu : Path.unfit? t with
  | none => exact ends_pure trivial
  | some unfit => exact ends_fail (h unfit hu)

theorem ends_guard {p : Prop} [Decidable p] {failure : Failure} {k : Unit → Act β}
    (hp : p → P failure) (hk : Ends R P (k ())) :
    Ends R P (if p then fail failure >>= k else k ()) := by
  split
  · rename_i h
    exact fun w => .inr ⟨failure, w, rfl, hp h⟩
  · exact hk

theorem Ends.clearing {clear : Act Unit} (h : Ends Q P a) (hc : Ends (fun _ => True) P clear) :
    Ends Q P (clearing a clear) := by
  intro w
  rw [perform_clearing]
  obtain ⟨x, w₁, ha, hx⟩ | ⟨failure, w₁, ha, hp⟩ := h w <;> rw [ha]
  · exact .inl ⟨x, w₁, rfl, hx⟩
  · exact hc.bind (fun _ _ => ends_fail hp) w₁

end Ends

end Syllogism.Act
