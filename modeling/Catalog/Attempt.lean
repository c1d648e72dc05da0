import Catalog.Rejection

/-!
Computations that may be rejected and keep their state either way: what was done before a
rejection stays done.
-/
namespace Catalog

/-- A step from one state to the next, with a result or the reason for having none. -/
def Attempt (σ α : Type) : Type :=
  σ → Except Rejection α × σ

namespace Attempt

variable {σ α β : Type}

instance : Monad (Attempt σ) where
  pure a s := (.ok a, s)
  bind x f s :=
    match x s with
    | (.ok a, s) => f a s
    | (.error r, s) => (.error r, s)

/-- The result and the state that a computation ends in. -/
def run (x : Attempt σ α) (s : σ) : Except Rejection α × σ :=
  x s

def reject (r : Rejection) : Attempt σ α :=
  fun s => (.error r, s)

def ofExcept (x : Except Rejection α) : Attempt σ α :=
  fun s => (x, s)

def state : Attempt σ σ :=
  fun s => (.ok s, s)

def modify (f : σ → σ) : Attempt σ Unit :=
  fun s => (.ok (), f s)

/-- Visits the items in order and stops at the first rejection. -/
def forEach (f : α → Attempt σ β) : List α → Attempt σ Unit
  | [] => pure ()
  | a :: as => do
    let _ ← f a
    forEach f as

/-- The results for the items in order, up to the first rejection. -/
def mapEach (f : α → Attempt σ β) : List α → Attempt σ (List β)
  | [] => pure []
  | a :: as => do
    let b ← f a
    let bs ← mapEach f as
    pure (b :: bs)

@[simp] theorem run_pure (a : α) (s : σ) : run (pure a) s = (.ok a, s) :=
  rfl

instance : LawfulMonad (Attempt σ) := LawfulMonad.mk'
  _
  (fun x => funext fun s => by
    change (match x s with | (.ok a, s) => _ | (.error r, s) => _) = x s
    rcases x s with ⟨_ | _, _⟩ <;> rfl)
  (fun _ _ => rfl)
  (fun x f g => funext fun s => by
    change (match (match x s with | (.ok a, s) => f a s | (.error r, s) => (.error r, s)) with
        | (.ok b, s) => g b s | (.error r, s) => (.error r, s))
      = (match x s with | (.ok a, s) => (f a >>= g) s | (.error r, s) => (.error r, s))
    rcases x s with ⟨_ | _, _⟩ <;> rfl)

theorem run_bind (x : Attempt σ α) (f : α → Attempt σ β) (s : σ) :
    run (x >>= f) s = match x.run s with
      | (.ok a, s) => (f a).run s
      | (.error r, s) => (.error r, s) :=
  rfl

theorem run_bind_ok {x : Attempt σ α} {s t : σ} {a : α} (h : x.run s = (.ok a, t))
    (f : α → Attempt σ β) : run (x >>= f) s = (f a).run t := by
  rw [run_bind, h]

theorem run_bind_error {x : Attempt σ α} {s t : σ} {r : Rejection} (h : x.run s = (.error r, t))
    (f : α → Attempt σ β) : run (x >>= f) s = (.error r, t) := by
  rw [run_bind, h]

theorem run_map (f : α → β) (x : Attempt σ α) (s : σ) :
    run (f <$> x) s = ((x.run s).1.map f, (x.run s).2) := by
  rw [map_eq_pure_bind, run_bind]
  rcases x.run s with ⟨_ | _, _⟩ <;> rfl

@[simp] theorem run_reject (r : Rejection) (s : σ) :
    run (reject r : Attempt σ α) s = (.error r, s) :=
  rfl

@[simp] theorem run_ofExcept (x : Except Rejection α) (s : σ) : run (ofExcept x) s = (x, s) :=
  rfl

@[simp] theorem run_modify (f : σ → σ) (s : σ) : run (modify f) s = (.ok (), f s) :=
  rfl

end Attempt

end Catalog
