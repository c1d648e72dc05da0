import Catalog.Attempt

/-!
What a computation that may be rejected meets: one condition on its result and the state it ends
in, another on the rejection and the state it leaves. What a sequence meets is put together from
what its parts meet, so the proofs about an operation follow its text.
-/
namespace Catalog.Attempt

variable {σ α β : Type}

/-- Started in `s`, the computation ends in `P`, or is rejected in `Q`. -/
def Meets (x : Attempt σ α) (s : σ) (P : α → σ → Prop) (Q : Rejection → σ → Prop) : Prop :=
  match x.run s with
  | (.ok a, t) => P a t
  | (.error r, t) => Q r t

variable {x : Attempt σ α} {f : α → Attempt σ β} {s t : σ}
  {P P' : α → σ → Prop} {Q Q' : Rejection → σ → Prop} {R : β → σ → Prop}

theorem Meets.of_run_ok {a : α} (h : x.Meets s P Q) (hx : x.run s = (.ok a, t)) : P a t := by
  unfold Meets at h
  rw [hx] at h
  exact h

theorem Meets.of_run_error {r : Rejection} (h : x.Meets s P Q) (hx : x.run s = (.error r, t)) :
    Q r t := by
  unfold Meets at h
  rw [hx] at h
  exact h

theorem meets_of_run_ok {a : α} (hx : x.run s = (.ok a, t)) (h : P a t) : x.Meets s P Q := by
  unfold Meets
  rw [hx]
  exact h

theorem meets_of_run_error {r : Rejection} (hx : x.run s = (.error r, t)) (h : Q r t) :
    x.Meets s P Q := by
  unfold Meets
  rw [hx]
  exact h

theorem Meets.mono (h : x.Meets s P Q) (hP : ∀ a t, P a t → P' a t)
    (hQ : ∀ r t, Q r t → Q' r t) : x.Meets s P' Q' := by
  unfold Meets at h ⊢
  split at h
  · exact hP _ _ h
  · exact hQ _ _ h

theorem Meets.imp (h : x.Meets s P Q) (hP : ∀ a t, P a t → P' a t) : x.Meets s P' Q :=
  h.mono hP fun _ _ hQ => hQ

/-- What is met in two ways is met in both. -/
theorem Meets.and (h : x.Meets s P Q) (h' : x.Meets s P' Q') :
    x.Meets s (fun a t => P a t ∧ P' a t) (fun r t => Q r t ∧ Q' r t) := by
  rcases hr : x.run s with ⟨r | a, t⟩
  · exact meets_of_run_error hr ⟨h.of_run_error hr, h'.of_run_error hr⟩
  · exact meets_of_run_ok hr ⟨h.of_run_ok hr, h'.of_run_ok hr⟩

theorem meets_run (x : Attempt σ α) (s : σ) :
    x.Meets s (fun a t => x.run s = (.ok a, t)) (fun r t => x.run s = (.error r, t)) := by
  rcases hr : x.run s with ⟨r | a, t⟩
  · exact meets_of_run_error hr rfl
  · exact meets_of_run_ok hr rfl

theorem meets_pure {a : α} (h : P a s) : (pure a : Attempt σ α).Meets s P Q :=
  h

theorem meets_reject {r : Rejection} (h : Q r s) : (reject r : Attempt σ α).Meets s P Q :=
  h

/-- Going on with the state as it is. -/
theorem meets_state_bind {g : σ → Attempt σ α} (h : (g s).Meets s P Q) :
    (state >>= g).Meets s P Q :=
  h

theorem meets_modify {g : σ → σ} {P : Unit → σ → Prop} (h : P () (g s)) :
    (modify g).Meets s P Q :=
  h

theorem Meets.bind (hx : x.Meets s P Q) (hf : ∀ a t, P a t → (f a).Meets t R Q) :
    (x >>= f).Meets s R Q := by
  rcases hr : x.run s with ⟨r | a, t⟩
  · exact meets_of_run_error (run_bind_error hr f) (hx.of_run_error hr)
  · unfold Meets
    rw [run_bind_ok hr f]
    exact hf a t (hx.of_run_ok hr)

end Catalog.Attempt
