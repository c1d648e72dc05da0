import Catalog.Proofs.Store.Layout

/-!
How work on a store ends: with an outcome and a store left behind, which is to say that no
identifier led nowhere. How a sequence ends is put together from how its parts do.
-/
namespace Catalog

namespace Access

variable {α β δ : Type}

/-- Started on a store, work has an outcome and leaves a store behind. -/
def Ends (x : Access α) (st : Store) (out : Except Rejection α) (st' : Store) : Prop :=
  x.run.run st = some (out, st')

variable {x : Access α} {f : α → Access β} {st st' st'' : Store} {a : α} {r : Rejection}
  {out : Except Rejection β}

theorem ends_pure (a : α) (st : Store) : Ends (pure a) st (.ok a) st :=
  rfl

theorem ends_throw (r : Rejection) (st : Store) : Ends (throw r : Access α) st (.error r) st :=
  rfl

theorem ends_modify (g : Store → Store) (st : Store) : Ends (modify g) st (.ok ()) (g st) :=
  rfl

theorem Ends.bind (hx : Ends x st (.ok a) st') (hf : Ends (f a) st' out st'') :
    Ends (x >>= f) st out st'' := by
  unfold Ends at hx hf ⊢
  rw [ExceptT.run_bind, StateT.run_bind, hx]
  exact hf

theorem Ends.seq {x : Access Unit} {y : Access β} (hx : Ends x st (.ok ()) st')
    (hy : Ends y st' out st'') : Ends (x >>= fun _ => y) st out st'' :=
  hx.bind hy

theorem Ends.bind_error (hx : Ends x st (.error r) st') (f : α → Access β) :
    Ends (x >>= f) st (.error r) st' := by
  unfold Ends at hx ⊢
  rw [ExceptT.run_bind, StateT.run_bind, hx]
  rfl

theorem Ends.get {f : Store → Access β} (hf : Ends (f st) st out st') :
    Ends (MonadState.get >>= f) st out st' :=
  Ends.bind (x := MonadState.get) rfl hf

theorem Ends.map {out : Except Rejection α} (hx : Ends x st out st') (g : α → β) :
    Ends (g <$> x) st (out.map g) st' := by
  rw [← bind_pure_comp]
  cases out with
  | ok a => exact hx.bind rfl
  | error r => exact hx.bind_error _

theorem Ends.adapt {out : Except Rejection α} (hx : Ends x st out st')
    (g : Rejection → Rejection) : Ends (x.adapt g) st (out.mapError g) st' := by
  unfold Ends at hx ⊢
  change (Except.mapError g <$> x.run).run st = _
  rw [StateT.run_map, hx]
  rfl

/-- A search whose tests only look. -/
theorem ends_findM? {ε : Type} {l : List δ} {g : δ → ε} {q : ε → Access Bool} {p : δ → Bool}
    (hq : ∀ x ∈ l, Ends (q (g x)) st (.ok (p x)) st) :
    Ends ((l.map g).findM? q) st (.ok ((l.find? p).map g)) st := by
  induction l with
  | nil => exact ends_pure none _
  | cons x l ih =>
    apply (hq x List.mem_cons_self).bind
    cases hx : p x with
    | true =>
      rw [List.find?_cons_of_pos hx]
      exact ends_pure _ _
    | false =>
      rw [List.find?_cons_of_neg (by simp [hx])]
      exact ih fun y hy => hq y (List.mem_cons_of_mem x hy)

theorem ends_findSomeM? {ε : Type} {l : List δ} {g : δ → ε} {q : ε → Access (Option β)}
    {p : δ → Option β} (hq : ∀ x ∈ l, Ends (q (g x)) st (.ok (p x)) st) :
    Ends ((l.map g).findSomeM? q) st (.ok (l.findSome? p)) st := by
  induction l with
  | nil => exact ends_pure none _
  | cons x l ih =>
    apply (hq x List.mem_cons_self).bind
    rw [List.findSome?_cons]
    cases p x with
    | some b => exact ends_pure _ _
    | none => exact ih fun y hy => hq y (List.mem_cons_of_mem x hy)

end Access

namespace Store

open Access

variable {k : Kind} {st : Store} {ρ : Rows} {i : Id k} {r : Stored k}

/-- The store with other records. -/
def withRows (st : Store) (ρ : Rows) : Store :=
  { st with arena := ρ.arena }

theorem ends_row (h : ρ.Told k) (hr : r ∈ ρ k) :
    Ends (row r.key) (st.withRows ρ) (.ok r) (st.withRows ρ) := by
  change Option.map _ ((ρ.arena k).get? r.key) = _
  rw [Rows.get?_arena_of_mem h hr]
  rfl

theorem ends_insert (ρ : Rows) (r : Stored k) :
    Ends (insert r.key r) (st.withRows ρ) (.ok ()) (st.withRows (ρ.push r)) := by
  rw [withRows, withRows, Rows.arena_push]
  rfl

theorem ends_update (h : ρ.Told k) (hi : i ∈ (ρ k).map Stored.key) {f : Stored k → Stored k}
    (hf : ∀ r, (f r).key = r.key) :
    Ends (update i f) (st.withRows ρ) (.ok ()) (st.withRows (ρ.alter i f)) := by
  obtain ⟨r, hr, rfl⟩ := List.mem_map.mp hi
  apply (ends_row h hr).bind
  rw [withRows, withRows, Rows.arena_alter h hr hf]
  rfl

/-- Records are filed one after another. -/
theorem ends_inserts (ρ : Rows) (rs : List (Stored k)) :
    Ends (rs.forM fun r => insert r.key r) (st.withRows ρ) (.ok ())
      (st.withRows (ρ.append rs)) := by
  induction rs generalizing ρ with
  | nil =>
    rw [Rows.append, List.append_nil, Function.update_eq_self]
    exact ends_pure () _
  | cons r rs ih =>
    have hboth : (ρ.push r).append rs = ρ.append (r :: rs) := by
      rw [Rows.append, Rows.append, Rows.push, Function.update_self, Function.update_idem,
        List.append_assoc]
      rfl
    rw [← hboth]
    exact (ends_insert ρ r).seq (ih _)

/-- Changes one record after another in the same way. -/
theorem ends_updates (h : ρ.Told k) {is : List (Id k)} (his : is ⊆ (ρ k).map Stored.key)
    (hnodup : is.Nodup) {f : Stored k → Stored k} (hf : ∀ r, (f r).key = r.key) :
    Ends (is.forM fun i => update i f) (st.withRows ρ) (.ok ())
      (st.withRows (ρ.alterEach is f)) := by
  induction is generalizing ρ with
  | nil =>
    simp only [Rows.alterEach_eq, List.not_mem_nil, if_false, List.map_id', Function.update_eq_self]
    exact ends_pure () _
  | cons i is ih =>
    obtain ⟨hi, his⟩ := List.cons_subset.mp his
    obtain ⟨hnew, hnodup⟩ := List.nodup_cons.mp hnodup
    have hkeys := ρ.map_key_alter i hf k
    have hrest := ih (ρ := ρ.alter i f) (by rw [Rows.Told, hkeys]; exact h)
      (by rw [hkeys]; exact his) hnodup
    rw [Rows.alterEach_eq, Rows.alter, Function.update_idem, Function.update_self,
      List.map_map] at hrest
    have hboth : (ρ k).map ((fun r => if r.key ∈ is then f r else r) ∘ fun r =>
        if r.key = i then f r else r) = (ρ k).map fun r => if r.key ∈ i :: is then f r else r := by
      apply List.map_congr_left
      intro r _
      rw [Function.comp_apply]
      by_cases hr : r.key = i
      · rw [if_pos hr, hf r, if_neg (by rw [hr]; exact hnew), if_pos (by rw [hr]; simp)]
      · simp [hr]
    rw [hboth, ← Rows.alterEach_eq] at hrest
    exact (ends_update h hi hf).bind hrest

end Store

end Catalog
