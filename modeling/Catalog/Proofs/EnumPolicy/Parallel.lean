import Catalog.Proofs.EnumPolicy.Unbound
import Catalog.Proofs.Mirror.Links

/-!
Two runs side by side, from assemblies that differ in enum links at most. Every construction has the
same outcome in both and leaves them so: drafts do not see the difference, and commits act on what
the two have in common.
-/
namespace Catalog

/-! What commits do to databases without enum links. -/

namespace Database

variable (db : Database) (id : Id .schema)

theorem unbound_updateSchema {f g : Schema → Schema} (h : ∀ s, (f s).unbound = g s.unbound) :
    (db.updateSchema id f).unbound = db.unbound.updateSchema id g := by
  simp only [updateSchema, unbound, List.map_map]
  congr 1
  apply List.map_congr_left
  intro s _
  simp only [Function.comp_apply, apply_ite Schema.unbound, h]
  rfl

theorem unbound_addSchema (s : Schema) :
    (db.addSchema s).unbound = db.unbound.addSchema s.unbound := by
  simp only [addSchema, unbound, List.map_append, List.map_singleton]

theorem unbound_addTable (t : Table) :
    (db.addTable id t).unbound = db.unbound.addTable id t.unbound :=
  db.unbound_updateSchema id fun s => by simp [Schema.unbound]

theorem unbound_addTag (t : Tag) : (db.addTag id t).unbound = db.unbound.addTag id t :=
  db.unbound_updateSchema id fun _ => rfl

theorem unbound_mapTables {f : Table → Table} (h : ∀ t, (f t).unbound = f t.unbound) :
    (db.mapTables f).unbound = db.unbound.mapTables f := by
  simp only [mapTables, unbound, Schema.unbound, List.map_map, Function.comp_def, h]

theorem unbound_addRef (r : Ref) : (db.addRef id r).unbound = db.unbound.addRef id r := by
  have hlink : ∀ (f : Field) (e : Endpoint),
      (f.linkEndpoint e).unbound = f.unbound.linkEndpoint e :=
    fun f e => apply_ite Field.unbound _ _ _
  have hmap : (db.mapFields fun f => (f.linkEndpoint r.first).linkEndpoint r.second).unbound
      = db.unbound.mapFields fun f => (f.linkEndpoint r.first).linkEndpoint r.second := by
    apply unbound_mapTables
    intro t
    simp only [Table.unbound, List.map_map, Function.comp_def, hlink]
  unfold addRef
  rw [← hmap]
  exact unbound_updateSchema _ id fun _ => rfl

theorem unbound_addTableGroup (g : TableGroup) :
    (db.addTableGroup id g).unbound = db.unbound.addTableGroup id g := by
  have hmap := db.unbound_mapTables (f := fun t =>
    if t.id ∈ g.tables then { t with group := some g.id } else t)
      fun t => apply_ite Table.unbound _ _ _
  unfold addTableGroup
  rw [← hmap]
  exact unbound_updateSchema _ id fun _ => rfl

/-- Binding an enum changes nothing but enum links. -/
theorem unbound_bindEnum (i : Id .enum) : (db.bindEnum i).unbound = db.unbound := by
  have hfield : ∀ f, (db.linkEnum i f).unbound = f.unbound := by
    intro f
    unfold linkEnum
    split <;> rfl
  have henum : ∀ e, (db.collectFields i e).unbound = e.unbound := by
    intro e
    unfold collectFields
    split <;> rfl
  rw [bindEnum_eq]
  simp only [relink, unbound, Schema.unbound, Table.unbound, List.map_map, Function.comp_def,
    hfield, henum]

theorem unbound_bindEnums : db.bindEnums.unbound = db.unbound := by
  have hfold : ∀ (es : List Enum) (db : Database),
      (es.foldl (fun db e => db.bindEnum e.id) db).unbound = db.unbound := by
    intro es
    induction es with
    | nil => exact fun _ => rfl
    | cons e es ih => exact fun db => (ih _).trans (db.unbound_bindEnum e.id)
  exact hfold db.enums db

theorem unbound_addEnum (e : Enum) : (db.addEnum id e).unbound =
    db.unbound.updateSchema id fun s => { s with enums := s.enums ++ [e.unbound] } := by
  have hinsert : (db.updateSchema id (·.insert (.enum e))).unbound =
      db.unbound.updateSchema id fun s => { s with enums := s.enums ++ [e.unbound] } :=
    db.unbound_updateSchema id fun s => by simp [Schema.insert, Schema.unbound]
  rcases db.addEnum_cases id e with ⟨-, heq⟩ | ⟨-, heq⟩
  · rw [heq, hinsert]
  · rw [heq, unbound_bindEnum, hinsert]

end Database

theorem Attempt.ofExcept_ok {σ α : Type} (v : α) : (ofExcept (.ok v) : Attempt σ α) = pure v :=
  rfl

/-! Runs side by side. -/

/-- The same outcome, with related results, in assemblies that differ in enum links at most. -/
inductive SameOutcome {α β : Type} (R : α → β → Prop) :
    Except Rejection α × Assembly → Except Rejection β × Assembly → Prop
  | ok {v : α} {w : β} {b b' : Assembly} (hv : R v w) (hb : b.unbound = b'.unbound) :
      SameOutcome R (.ok v, b) (.ok w, b')
  | error {r : Rejection} {b b' : Assembly} (hb : b.unbound = b'.unbound) :
      SameOutcome R (.error r, b) (.error r, b')

/-- From assemblies that differ in enum links at most, two computations come to the same outcome. -/
def Parallel {α β : Type} (R : α → β → Prop) (x : Construction α) (y : Construction β) : Prop :=
  ∀ a a' : Assembly, a.unbound = a'.unbound → SameOutcome R (x.run a) (y.run a')

/-- Enum links have no influence on a computation. -/
abbrev Blind {α : Type} (x : Construction α) : Prop :=
  Parallel Eq x x

namespace Parallel

variable {α β γ δ : Type} {R : α → β → Prop} {S : γ → δ → Prop} {x : Construction α}
  {y : Construction β} {f : α → Construction γ} {g : β → Construction δ}

theorem pure {v : α} {w : β} (h : R v w) : Parallel R (pure v) (pure w) :=
  fun _ _ ha => .ok h ha

theorem bind (hx : Parallel R x y) (hf : ∀ v w, R v w → Parallel S (f v) (g w)) :
    Parallel S (x >>= f) (y >>= g) := by
  intro a a' ha
  have hsame := hx a a' ha
  rw [Attempt.run_bind, Attempt.run_bind]
  generalize x.run a = p at hsame ⊢
  generalize y.run a' = q at hsame ⊢
  cases hsame with
  | ok hv hb => exact hf _ _ hv _ _ hb
  | error hb => exact .error hb

/-- Going on with the states as they are. -/
theorem state {f : Assembly → Construction γ} {g : Assembly → Construction δ}
    (h : ∀ a a' : Assembly, a.unbound = a'.unbound → Parallel S (f a) (g a')) :
    Parallel S (Attempt.state >>= f) (Attempt.state >>= g) :=
  fun a a' ha => h a a' ha a a' ha

end Parallel

namespace Blind

variable {α β δ : Type} {x : Construction α} {f : α → Construction β}

theorem bind (hx : Blind x) (hf : ∀ v, Blind (f v)) : Blind (x >>= f) :=
  Parallel.bind hx fun v _ heq => heq ▸ hf v

theorem modify {f : Assembly → Assembly} (h : ∀ a : Assembly, (f a).unbound = f a.unbound) :
    Blind (.modify f) := by
  intro a a' ha
  refine .ok rfl ?_
  rw [h, h, ha]

theorem forEach {f : δ → Construction α} (h : ∀ d, Blind (f d)) (ds : List δ) :
    Blind (Attempt.forEach f ds) := by
  induction ds with
  | nil => exact Parallel.pure rfl
  | cons d ds ih => exact (h d).bind fun _ => ih

end Blind

/-- Insertions of what is drafted alike, up to `e`, and committed alike. -/
theorem Parallel.insert {δ : Type} (e : δ → δ) {draft : Database → Drafting δ}
    {commit : Database → δ → Database} (hdraft : ∀ db, draft db.unbound = e <$> draft db)
    (hcommit : ∀ {db db' d d'}, db.unbound = db'.unbound → e d = e d' →
      (commit db d).unbound = (commit db' d').unbound) :
    Parallel (fun v w => e v = e w) (Assembly.insert draft commit)
      (Assembly.insert draft commit) := by
  intro a a' ha
  have hdb : a.database.unbound = a'.database.unbound := congrArg (·.database) ha
  have hids : a.ids = a'.ids := congrArg (·.ids) ha
  have hdrafts : (e <$> draft a.database).run a.ids = (e <$> draft a'.database).run a'.ids := by
    rw [← hdraft, ← hdraft, hdb, hids]
  rw [Attempt.run_map, Attempt.run_map] at hdrafts
  rcases hrun : (draft a.database).run a.ids with ⟨r | d, ids⟩ <;>
    rcases hrun' : (draft a'.database).run a'.ids with ⟨r' | d', ids'⟩ <;>
    simp only [hrun, hrun', Prod.mk.injEq] at hdrafts <;> obtain ⟨hout, rfl⟩ := hdrafts
  · obtain rfl := Except.error.inj hout
    rw [Assembly.insert_error hrun, Assembly.insert_error hrun']
    exact .error (congrArg (Assembly.mk · ids) hdb)
  · cases hout
  · cases hout
  · have hd : e d = e d' := Except.ok.inj hout
    rw [Assembly.insert_ok hrun, Assembly.insert_ok hrun']
    exact .ok hd (congrArg (Assembly.mk · ids) (hcommit hdb hd))

/-- Insertions of what is drafted without regard to enum links. -/
theorem Blind.insert {δ : Type} {draft : Database → Drafting δ}
    {commit : Database → δ → Database} (hdraft : ∀ db, draft db.unbound = draft db)
    (hcommit : ∀ (db db' : Database) (d : δ), db.unbound = db'.unbound →
      (commit db d).unbound = (commit db' d).unbound) :
    Blind (Assembly.insert draft commit) := by
  apply Parallel.insert id
  · exact fun db => (hdraft db).trans (id_map _).symm
  · rintro db db' d _ h rfl
    exact hcommit db db' d h

end Catalog
