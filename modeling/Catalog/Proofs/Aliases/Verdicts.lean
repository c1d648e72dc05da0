import Catalog.Assembly

/-!
Outcomes compared by what they say about the input. Of a rejection that is its kind and the token
that it blames; its wording does not count, nor does the state that it leaves behind.
-/
namespace Catalog

/-- Results that are related, or rejections of one kind that blame one token. -/
inductive SameVerdict {α β : Type} (R : α → β → Prop) :
    Except Rejection α → Except Rejection β → Prop
  | ok {v : α} {w : β} (h : R v w) : SameVerdict R (.ok v) (.ok w)
  | error {r r' : Rejection} (hkind : r'.kind = r.kind) (hspan : r'.span = r.span) :
      SameVerdict R (.error r) (.error r')

namespace SameVerdict

variable {α β γ δ : Type} {R R' : α → β → Prop} {S : γ → δ → Prop} {x : Except Rejection α}
  {y : Except Rejection β} {f : α → Except Rejection γ} {g : β → Except Rejection δ}

theorem of_eq {x y : Except Rejection α} {R : α → α → Prop} (h : y = x) (hR : ∀ v, R v v) :
    SameVerdict R x y := by
  subst h
  cases y with
  | error r => exact .error rfl rfl
  | ok v => exact .ok (hR v)

theorem of_map {f : α → β} (h : y = x.map f) (hR : ∀ v, R v (f v)) : SameVerdict R x y := by
  subst h
  cases x with
  | error r => exact .error rfl rfl
  | ok v => exact .ok (hR v)

theorem imp (h : SameVerdict R x y) (hR : ∀ v w, R v w → R' v w) : SameVerdict R' x y := by
  cases h with
  | ok h => exact .ok (hR _ _ h)
  | error hkind hspan => exact .error hkind hspan

theorem bind (h : SameVerdict R x y) (hf : ∀ v w, R v w → SameVerdict S (f v) (g w)) :
    SameVerdict S (x >>= f) (y >>= g) := by
  cases h with
  | ok h => exact hf _ _ h
  | error hkind hspan => exact .error hkind hspan

theorem map {f : α → γ} {g : β → δ} (h : SameVerdict R x y)
    (hf : ∀ v w, R v w → S (f v) (g w)) : SameVerdict S (x.map f) (y.map g) := by
  cases h with
  | ok h => exact .ok (hf _ _ h)
  | error hkind hspan => exact .error hkind hspan

theorem ite {p : Prop} [Decidable p] {x' : Except Rejection α} {y' : Except Rejection β}
    (h : SameVerdict R x y) (h' : SameVerdict R x' y') :
    SameVerdict R (if p then x else x') (if p then y else y') := by
  split
  · exact h
  · exact h'

end SameVerdict

namespace Attempt

variable {σ α β : Type}

/-- The result of a computation and the state that it ends in, if it is not rejected. -/
def outcome (x : Attempt σ α) (s : σ) : Except Rejection (α × σ) :=
  match x.run s with
  | (.ok a, t) => .ok (a, t)
  | (.error r, _) => .error r

theorem outcome_bind (x : Attempt σ α) (f : α → Attempt σ β) (s : σ) :
    (x >>= f).outcome s = x.outcome s >>= fun p => (f p.1).outcome p.2 := by
  unfold outcome
  rw [run_bind]
  rcases x.run s with ⟨_ | _, _⟩ <;> rfl

theorem outcome_ofExcept (x : Except Rejection α) (s : σ) :
    (ofExcept x).outcome s = x.map fun a => (a, s) := by
  cases x <;> rfl

/-- Going on with the state as it is. -/
theorem outcome_state_bind (f : σ → Attempt σ α) (s : σ) :
    (state >>= f).outcome s = (f s).outcome s :=
  rfl

theorem outcome_map (f : α → β) (x : Attempt σ α) (s : σ) :
    (f <$> x).outcome s = (x.outcome s).map fun p => (f p.1, p.2) := by
  rw [map_eq_pure_bind, outcome_bind]
  cases x.outcome s <;> rfl

end Attempt

theorem Assembly.outcome_insert {δ : Type} (draft : Database → Drafting δ)
    (commit : Database → δ → Database) (a : Assembly) :
    (insert draft commit).outcome a = ((draft a.database).outcome a.ids).map fun p =>
      (p.1, ⟨commit a.database p.1, p.2⟩) := by
  unfold Attempt.outcome
  rcases hrun : (draft a.database).run a.ids with ⟨r | v, ids⟩
  · rw [insert_error hrun]
    rfl
  · rw [insert_ok hrun]
    rfl

end Catalog
