import Catalog.Proofs.Drafting
import Catalog.Proofs.IdBase.Shift

/-!
Computations that follow one another from shifted states. The allocators of both begin at different
bases, so that one of them may run out of identifiers before the other one does; until then, what
one computation does is what the other one does, shifted.
-/
namespace Catalog

namespace Attempt

variable {σ α β γ δ : Type}

/-- A computation ends for want of an identifier. -/
def Starves (x : Attempt σ α) (s : σ) : Prop :=
  ∃ r t, x.run s = (.error r, t) ∧ r.kind = .idSpaceExhausted

/-- From a state `e s` one computation does what the other one does from `s`, unless one of them
starves. -/
def Tracks (e : σ → σ) (f : α → β) (x : Attempt σ α) (y : Attempt σ β) : Prop :=
  ∀ s, x.Starves s ∨ y.Starves (e s) ∨ y.run (e s) = Prod.map (Except.map f) e (x.run s)

variable {e : σ → σ} {f : α → β} {g : γ → δ} {x : Attempt σ α} {y : Attempt σ β}
  {k : α → Attempt σ γ} {k' : β → Attempt σ δ}

theorem Starves.bind {s : σ} (h : x.Starves s) : (x >>= k).Starves s := by
  obtain ⟨r, t, hrun, hkind⟩ := h
  exact ⟨r, t, run_bind_error hrun k, hkind⟩

theorem Starves.bind_of_ok {s t : σ} {a : α} (hrun : x.run s = (.ok a, t)) (h : (k a).Starves t) :
    (x >>= k).Starves s := by
  obtain ⟨r, u, hk, hkind⟩ := h
  exact ⟨r, u, (run_bind_ok hrun k).trans hk, hkind⟩

namespace Tracks

theorem of_run (h : ∀ s, y.run (e s) = Prod.map (Except.map f) e (x.run s)) : Tracks e f x y :=
  fun s => .inr (.inr (h s))

theorem pure {a : α} {b : β} (h : f a = b) : Tracks e f (pure a) (pure b) :=
  of_run fun _ => by rw [run_pure, run_pure, ← h]; rfl

theorem reject (r : Rejection) : Tracks e f (reject r) (reject r) :=
  of_run fun _ => rfl

theorem ofExcept {o : Except Rejection α} {o' : Except Rejection β} (h : o' = o.map f) :
    Tracks e f (ofExcept o) (ofExcept o') :=
  of_run fun _ => by rw [run_ofExcept, run_ofExcept, h]; rfl

theorem modify {h h' : σ → σ} (heq : ∀ s, h' (e s) = e (h s)) :
    Tracks e id (.modify h) (.modify h') :=
  of_run fun s => by rw [run_modify, run_modify, heq]; rfl

theorem bind (hx : Tracks e f x y) (hk : ∀ a, Tracks e g (k a) (k' (f a))) :
    Tracks e g (x >>= k) (y >>= k') := by
  intro s
  rcases hx s with hstarves | hstarves | hrun
  · exact .inl hstarves.bind
  · exact .inr (.inl hstarves.bind)
  · rcases hxs : x.run s with ⟨r | a, t⟩ <;> rw [hxs] at hrun
    · refine .inr (.inr ?_)
      rw [run_bind_error hxs, run_bind_error hrun]
      rfl
    · rcases hk a t with hstarves | hstarves | hrun'
      · exact .inl (.bind_of_ok hxs hstarves)
      · exact .inr (.inl (.bind_of_ok hrun hstarves))
      · refine .inr (.inr ?_)
        rw [run_bind_ok hxs, run_bind_ok hrun, hrun']

theorem ite {p : Prop} [Decidable p] {x' : Attempt σ α} {y' : Attempt σ β} (hx : Tracks e f x y)
    (hx' : Tracks e f x' y') : Tracks e f (if p then x else x') (if p then y else y') := by
  split
  · exact hx
  · exact hx'

/-- Going on with the states as they are. -/
theorem state {h : σ → Attempt σ γ} {h' : σ → Attempt σ δ}
    (htracks : ∀ s, Tracks e g (h s) (h' (e s))) :
    Tracks e g (Attempt.state >>= h) (Attempt.state >>= h') :=
  fun s => htracks s s

theorem forEach {ι : Type} {h : ι → Attempt σ α} {h' : ι → Attempt σ β}
    (htracks : ∀ i, Tracks e f (h i) (h' i)) (is : List ι) :
    Tracks e id (Attempt.forEach h is) (Attempt.forEach h' is) := by
  induction is with
  | nil => exact pure rfl
  | cons i is ih => exact (htracks i).bind fun _ => ih

theorem mapEach {ι κ : Type} {l : ι → κ} {h : ι → Attempt σ α} {h' : κ → Attempt σ β}
    (htracks : ∀ i, Tracks e f (h i) (h' (l i))) (is : List ι) :
    Tracks e (List.map f) (Attempt.mapEach h is) (Attempt.mapEach h' (is.map l)) := by
  induction is with
  | nil => exact pure rfl
  | cons i is ih => exact (htracks i).bind fun _ => ih.bind fun _ => pure rfl

end Tracks

end Attempt

open Attempt

variable {d : UInt32}

/-! Drafts. -/

/-- What both allocators issue is the same up to the shift. -/
theorem Allocator.peek_shift {a : Allocator} {k : Kind} {i j : Id k} (hi : a.peek k = some i)
    (hj : (a.shift d).peek k = some j) : j = i.shift d := by
  rw [peek_eq_some_iff] at hi hj
  have hbase : (a.shift d).base.toNat = (a.base.toNat + d.toNat) % 2 ^ 32 :=
    UInt32.toNat_add a.base d
  have hval : (i.shift d).toNat = (i.toNat + d.toNat) % 2 ^ 32 := UInt32.toNat_add i.val d
  have hlt : j.toNat < 2 ^ 32 := j.toNat_lt
  have hissued : (a.shift d).issued k = a.issued k := rfl
  apply Id.toNat_inj
  rw [next, hbase, hissued] at hj
  rw [next] at hi
  omega

theorem tracks_issue (k : Kind) :
    Tracks (Allocator.shift d) (Id.shift d) (issue k) (issue k) := by
  intro a
  cases hi : a.peek k with
  | none => exact .inl ⟨_, _, issue_none hi, rfl⟩
  | some i =>
    cases hj : (a.shift d).peek k with
    | none => exact .inr (.inl ⟨_, _, issue_none hj, rfl⟩)
    | some j =>
      refine .inr (.inr ?_)
      rw [issue_some hi, issue_some hj, Allocator.peek_shift hi hj]
      rfl

theorem tracks_draftFields (table : String) (earlier : List String) (ds : List Decl.Field) :
    Tracks (Allocator.shift d) (List.map (Field.shift d)) (draftFields table earlier ds)
      (draftFields table earlier ds) := by
  induction ds generalizing earlier with
  | nil => exact .pure rfl
  | cons f ds ih =>
    unfold draftFields
    apply (tracks_issue .field).bind
    intro i
    split
    · exact .reject _
    · exact (ih _).bind fun _ => .pure rfl

theorem tracks_draftColumn (c : Decl.IndexColumn) :
    Tracks (Allocator.shift d) (IndexColumn.shift d) (draftColumn c) (draftColumn c) :=
  (tracks_issue .indexColumn).bind fun _ => .pure rfl

theorem tracks_draftIndex (i : Decl.Index) :
    Tracks (Allocator.shift d) (Index.shift d) (draftIndex i) (draftIndex i) := by
  have hcolumns := Tracks.mapEach (l := id) (tracks_draftColumn (d := d)) i.columns
  rw [List.map_id] at hcolumns
  exact (tracks_issue .index).bind fun _ => hcolumns.bind fun _ => .pure rfl

theorem tracks_draftTable (t : Decl.Table) :
    Tracks (Allocator.shift d) (Table.shift d) (draftTable t) (draftTable t) := by
  have hindexes := Tracks.mapEach (l := id) (tracks_draftIndex (d := d)) t.indexes
  rw [List.map_id] at hindexes
  exact (tracks_issue .table).bind fun _ => (tracks_draftFields _ _ _).bind fun _ =>
    hindexes.bind fun _ => .pure rfl

theorem tracks_draftValues (enum : String) (earlier : List String) (ds : List Decl.EnumValue) :
    Tracks (Allocator.shift d) (List.map (EnumValue.shift d)) (draftValues enum earlier ds)
      (draftValues enum earlier ds) := by
  induction ds generalizing earlier with
  | nil => exact .pure rfl
  | cons v ds ih =>
    unfold draftValues
    apply (tracks_issue .enumValue).bind
    intro i
    split
    · exact .reject _
    · exact (ih _).bind fun _ => .pure rfl

theorem tracks_draftEnum (e : Decl.Enum) :
    Tracks (Allocator.shift d) (Enum.shift d) (draftEnum e) (draftEnum e) :=
  (tracks_issue .enum).bind fun _ => (tracks_draftValues _ _ _).bind fun _ => .pure rfl

theorem tracks_draftEndpoint (e : Resolved) :
    Tracks (Allocator.shift d) (Endpoint.shift d) (draftEndpoint e) (draftEndpoint (e.shift d)) :=
  (tracks_issue .endpoint).bind fun _ => .pure rfl

theorem tracks_draftRef (r : Decl.Ref) (first second : Resolved) :
    Tracks (Allocator.shift d) (Ref.shift d) (draftRef r first second)
      (draftRef r (first.shift d) (second.shift d)) :=
  (tracks_issue .ref).bind fun _ => (tracks_draftEndpoint first).bind fun _ =>
    (tracks_draftEndpoint second).bind fun _ => .pure rfl

/-- Checks that have the same outcome, whatever identifiers are like. -/
theorem tracks_check {m m' : Drafting Unit} (h : m' = m)
    (hm : m = pure () ∨ ∃ r, m = .reject r) : Tracks (Allocator.shift d) id m m' := by
  subst h
  rcases hm with rfl | ⟨r, rfl⟩
  · exact .pure rfl
  · exact .reject r

namespace Assembly

variable (db : Database) (i : Id .schema)

theorem tracks_checkName (sort : ChildSort) (name : String) (token : Span) :
    Tracks (Allocator.shift d) id (checkName db i sort name token)
      (checkName (db.shift d) (i.shift d) sort name token) := by
  apply tracks_check (checkName_shift db i sort name token)
  unfold checkName
  split
  · exact .inl rfl
  · split
    · exact .inr ⟨_, rfl⟩
    · exact .inl rfl

theorem tracks_checkRef (r : Ref) : Tracks (Allocator.shift d) id (checkRef db i r)
    (checkRef (db.shift d) (i.shift d) (r.shift d)) := by
  apply tracks_check (checkRef_shift db i r)
  unfold checkRef
  split
  · exact .inl rfl
  · split
    · exact .inr ⟨_, rfl⟩
    · exact .inl rfl

theorem tracks_checkUngrouped (ts : List Table) (token : Span) :
    Tracks (Allocator.shift d) id (checkUngrouped db ts token)
      (checkUngrouped (db.shift d) (ts.map (·.shift d)) token) := by
  apply tracks_check (checkUngrouped_shift db ts token)
  unfold checkUngrouped
  split
  · exact .inl rfl
  · exact .inr ⟨_, rfl⟩

/-- Drafts that track one another are committed, each to its own database. -/
theorem tracks_insert {δ : Type} {f : δ → δ} {draft draft' : Database → Drafting δ}
    {commit commit' : Database → δ → Database}
    (hdraft : ∀ db, Tracks (Allocator.shift d) f (draft db) (draft' (db.shift d)))
    (hcommit : ∀ db v, commit' (db.shift d) (f v) = (commit db v).shift d) :
    Tracks (Assembly.shift d) f (insert draft commit) (insert draft' commit') := by
  intro a
  rcases hdraft a.database a.ids with ⟨r, ids, hrun, hkind⟩ | ⟨r, ids, hrun, hkind⟩ | hrun
  · exact .inl ⟨r, _, insert_error hrun, hkind⟩
  · exact .inr (.inl ⟨r, _, insert_error hrun, hkind⟩)
  · refine .inr (.inr ?_)
    rcases hrun' : (draft a.database).run a.ids with ⟨r | v, ids⟩ <;> rw [hrun'] at hrun
    · rw [insert_error hrun', insert_error hrun]
      rfl
    · rw [insert_ok hrun', insert_ok hrun]
      exact congrArg (fun db => (Except.ok (f v), Assembly.mk db (ids.shift d)))
        (hcommit a.database v)

end Assembly

end Catalog
