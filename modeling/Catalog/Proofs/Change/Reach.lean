import Catalog.Proofs.Change.Insert

/-!
Construction proceeds by changes: every part of a build but the binding of tags, and every operation
after it, rejected or not.
-/
namespace Catalog

/-! Changes add schemas at most. -/

/-- A schema apart from its children. -/
def Schema.head (s : Schema) : SchemaInfo × Id .schema :=
  (s.toSchemaInfo, s.id)

namespace Database

variable {db : Database}

theorem heads_relink (f : Table → Table) (g : Enum → Enum) :
    (db.relink f g).schemas.map (·.head) = db.schemas.map (·.head) := by
  rw [relink, List.map_map]
  rfl

theorem heads_updateSchema (id : Id .schema) (e : Entity) :
    (db.updateSchema id (·.insert e)).schemas.map (·.head) = db.schemas.map (·.head) := by
  rw [updateSchema, List.map_map]
  apply List.map_congr_left
  intro s _
  simp only [Function.comp_apply]
  split
  · simp only [Schema.head, s.insert_info, s.insert_id]
  · rfl

theorem heads_bindEnum (i : Id .enum) :
    (db.bindEnum i).schemas.map (·.head) = db.schemas.map (·.head) := by
  obtain ⟨f, g, heq, -, -⟩ := db.bindEnum_eq_relink i
  rw [heq, heads_relink]

theorem heads_commit (id : Id .schema) (e : Entity) :
    (db.commit id e).schemas.map (·.head) = db.schemas.map (·.head) := by
  rcases db.commit_cases id e with ⟨-, heq⟩ | ⟨en, -, -, heq⟩
  · rw [heq, place, heads_updateSchema, heads_relink]
  · rw [heq, heads_bindEnum, place, heads_updateSchema, heads_relink]

end Database

namespace Assembly

variable {m : Remit} {a b : Assembly} {id : Id .schema}

theorem Change.heads_cases (h : Change m a b) :
    b.database.schemas.map (·.head) = a.database.schemas.map (·.head) ∨
      m.opens ∧ ∃ s : Schema,
        b.database.schemas.map (·.head) = a.database.schemas.map (·.head) ++ [s.head] := by
  cases h with
  | spend h =>
    rw [h.database]
    exact .inl rfl
  | mark => exact .inl rfl
  | @opens s _ h hm =>
    refine .inr ⟨hm, s, ?_⟩
    rw [h.database, Database.addSchema, List.map_append]
    rfl
  | inserts h =>
    rw [h.database, Database.heads_commit]
    exact .inl rfl
  | bindEnum i =>
    rw [Database.heads_bindEnum]
    exact .inl rfl

theorem Change.heads (h : Change m a b) :
    a.database.schemas.map (·.head) <+: b.database.schemas.map (·.head) := by
  rcases h.heads_cases with heq | ⟨-, s, heq⟩
  · exact heq ▸ List.prefix_rfl
  · exact heq ▸ List.prefix_append _ _

/-- Records can be inserted into the schema with some identifier. -/
def HasSchema (id : Id .schema) (a : Assembly) : Prop :=
  ∃ s ∈ a.database.schemas, s.id = id

theorem HasSchema.schema? (h : a.HasSchema id) : ∃ s, a.database.schema? id = some s := by
  obtain ⟨s, hs, hid⟩ := h
  have hsome : (a.database.schemas.find? (·.id = id)).isSome = true :=
    List.find?_isSome.mpr ⟨s, hs, decide_eq_true hid⟩
  exact Option.isSome_iff_exists.mp hsome

theorem HasSchema.change (h : a.HasSchema id) (hab : Change m a b) : b.HasSchema id := by
  obtain ⟨s, hs, rfl⟩ := h
  have hhead := hab.heads.subset (List.mem_map.mpr ⟨s, hs, rfl⟩)
  obtain ⟨s', hs', heq⟩ := List.mem_map.mp hhead
  exact ⟨s', hs', congrArg (·.2) heq⟩

end Assembly

/-- Where `P` holds, the computation proceeds by changes within a remit, and `R` holds then of its
result. -/
def Evolves {α : Type} (m : Remit) (P : Assembly → Prop) (x : Construction α)
    (R : α → Assembly → Prop) : Prop :=
  ∀ a, P a → x.Meets a (fun v b => Assembly.Changes m a b ∧ R v b)
    (fun _ b => Assembly.Changes m a b)

namespace Evolves

variable {α β : Type} {m m' : Remit} {P P' : Assembly → Prop} {x : Construction α}
  {f : α → Construction β} {R : α → Assembly → Prop} {S : β → Assembly → Prop}

theorem imp {R' : α → Assembly → Prop} (h : Evolves m P x R) (hP : ∀ a, P' a → P a)
    (hR : ∀ v a, R v a → R' v a) : Evolves m P' x R' := by
  intro a ha
  apply (h a (hP a ha)).imp
  rintro v b ⟨hab, hv⟩
  exact ⟨hab, hR v b hv⟩

theorem within (h : Evolves m P x R) (hm : m.Within m') : Evolves m' P x R := by
  intro a ha
  apply (h a ha).mono
  · rintro v b ⟨hab, hv⟩
    exact ⟨hab.mono hm, hv⟩
  · exact fun _ _ hab => hab.mono hm

theorem pure {v : α} (h : ∀ a, P a → R v a) : Evolves m P (pure v) R :=
  fun a ha => Attempt.meets_pure ⟨.refl, h a ha⟩

theorem bind (hx : Evolves m P x R) (hf : ∀ v, Evolves m (R v) (f v) S) :
    Evolves m P (x >>= f) S := by
  intro a ha
  apply Attempt.Meets.bind (hx a ha)
  rintro v b ⟨hab, hv⟩
  apply (hf v b hv).mono
  · rintro w b' ⟨hbb', hw⟩
    exact ⟨hab.trans hbb', hw⟩
  · exact fun _ _ hbb' => hab.trans hbb'

theorem forEach {f : β → Construction α} (h : ∀ d, Evolves m P (f d) fun _ => P) (ds : List β) :
    Evolves m P (Attempt.forEach f ds) fun _ => P := by
  induction ds with
  | nil => exact pure fun _ hP => hP
  | cons d ds ih => exact (h d).bind fun _ => ih

/-- Going on with the state as it is. -/
theorem state {g : Assembly → Construction α}
    (h : ∀ a, Evolves m (fun b => P b ∧ b = a) (g a) R) : Evolves m P (Attempt.state >>= g) R :=
  fun a ha => Attempt.meets_state_bind (h a a ⟨ha, rfl⟩)

theorem modify {g : Assembly → Assembly} (h : ∀ a, P a → Assembly.Changes m a (g a)) :
    Evolves m P (.modify g) fun _ _ => True :=
  fun a ha => Attempt.meets_modify ⟨h a ha, trivial⟩

/-- Whatever comes of it, what follows from the changes made holds in the end. -/
theorem changes (h : Evolves m P x R) {a : Assembly} (ha : P a) :
    Assembly.Changes m a (x.run a).2 := by
  rcases hr : x.run a with ⟨r | v, b⟩
  · exact (h a ha).of_run_error hr
  · exact ((h a ha).of_run_ok hr).1

/-- What the changes keep holds afterwards, too. -/
theorem keeping {I : Assembly → Prop} (h : Evolves m P x R)
    (hI : ∀ a b, I a → Assembly.Change m a b → I b) :
    Evolves m (fun a => P a ∧ I a) x fun v b => R v b ∧ I b := by
  rintro a ⟨hP, ha⟩
  apply (h a hP).imp
  rintro v b ⟨hab, hv⟩
  exact ⟨hab, hv, hab.keep hI ha⟩

/-- A computation that always goes on keeps what the changes keep. -/
theorem keeps {I : Assembly → Prop} (h : Evolves m (fun _ => True) x fun _ _ => True)
    (hI : ∀ a b, I a → Assembly.Change m a b → I b) : Evolves m I x fun _ => I :=
  (h.keeping hI).imp (fun _ ha => ⟨trivial, ha⟩) fun _ _ hb => hb.2

theorem meets (h : Evolves m P x R) {a : Assembly} (ha : P a) :
    x.Meets a R fun _ _ => True :=
  (h a ha).mono (fun _ _ hb => hb.2) fun _ _ _ => trivial

end Evolves

/-! Operations on a schema that exists. -/

section Insertions

variable {id : Id .schema} {k : Kind}

theorem evolves_insert {α : Type} {x : Construction α} {entity : α → Entity}
    (h : ∀ a s, a.database.schema? id = some s →
      x.Meets a (fun v b => a.Inserts s (entity v) b) fun _ b => a.Spent b)
    (hk : ∀ v, (entity v).kind = k) :
    Evolves (.into id k) (Assembly.HasSchema id) x fun _ => Assembly.HasSchema id := by
  intro a ha
  obtain ⟨s, hs⟩ := ha.schema?
  apply (h a s hs).mono
  · intro v b hb
    have hab : Assembly.Change (.into id k) a b :=
      .inserts hb ⟨(Assembly.mem_schemas_schema? hs).2, hk v⟩
    exact ⟨.single hab, ha.change hab⟩
  · exact fun _ _ hb => .single (.spend hb)

/-- Inserting records of one kind, one after another. -/
theorem evolves_inserts {δ ε : Type} {push : δ → Construction ε} {entity : ε → Entity}
    (h : ∀ d a s, a.database.schema? id = some s →
      (push d).Meets a (fun v b => a.Inserts s (entity v) b) fun _ b => a.Spent b)
    (hk : ∀ v, (entity v).kind = k) {ds : List δ} :
    Evolves (.into id k) (Assembly.HasSchema id) (Attempt.forEach push ds)
      fun _ => Assembly.HasSchema id :=
  .forEach (fun d => evolves_insert (h d) hk) ds

theorem evolves_process (d : Decl.Schema) :
    Evolves .full (Assembly.HasSchema id) (Assembly.process id d) fun _ =>
      Assembly.HasSchema id := by
  unfold Assembly.process
  apply ((evolves_inserts (fun t _ _ hs => Assembly.meets_pushTable hs t) fun _ => rfl).within
    (Remit.within_full _)).bind
  intro _
  apply ((evolves_inserts (fun t _ _ hs => Assembly.meets_pushTag hs t) fun _ => rfl).within
    (Remit.within_full _)).bind
  intro _
  apply ((evolves_inserts (fun e _ _ hs => Assembly.meets_pushEnum hs e) fun _ => rfl).within
    (Remit.within_full _)).bind
  intro _
  apply ((evolves_inserts (fun r _ _ hs => Assembly.meets_pushRef hs r) fun _ => rfl).within
    (Remit.within_full _)).bind
  intro _
  exact (evolves_inserts (fun g _ _ hs => Assembly.meets_pushTableGroup hs g) fun _ => rfl).within
    (Remit.within_full _)

end Insertions

/-! Schemas, created or found. -/

theorem evolves_pushSchema (info : SchemaInfo) (token : Span) :
    Evolves .opening (fun _ => True) (Assembly.pushSchema info token)
      fun s => Assembly.HasSchema s.id := by
  intro a _
  apply (Assembly.meets_pushSchema info token).mono
  · rintro s b ⟨hb, -, -⟩
    refine ⟨.single (.opens hb trivial), s, ?_, rfl⟩
    rw [hb.database]
    exact List.mem_append_right _ List.mem_cons_self
  · exact fun _ _ hb => .single (.spend hb)

theorem evolves_markDefault :
    Evolves .opening (fun _ => True) Assembly.markDefault fun _ _ => True :=
  .modify fun _ _ => .single .mark

theorem evolves_markIfDefault (id : Id .schema) :
    Evolves .opening (fun _ => True) (Assembly.markIfDefault id) fun _ _ => True := by
  apply Evolves.modify
  intro a _
  split
  · split
    · exact .single .mark
    · exact .refl
  · exact .refl

theorem evolves_declareSchema (d : Decl.Schema) :
    Evolves .full (fun _ => True) (Assembly.declareSchema d) fun _ _ => True := by
  unfold Assembly.declareSchema
  apply ((evolves_pushSchema d.toSchemaInfo d.token).within (Remit.within_full _)).bind
  intro s
  apply (evolves_process d).bind
  intro _
  exact ((evolves_markIfDefault s.id).within (Remit.within_full _)).imp (fun _ _ => trivial)
    fun _ _ h => h

theorem evolves_getOrCreateSchema (name : String) :
    Evolves .opening (fun _ => True) (Assembly.getOrCreateSchema name)
      fun i => Assembly.HasSchema i := by
  unfold Assembly.getOrCreateSchema
  have create : ∀ info, Evolves .opening (fun _ => True)
      (do
        let s ← Assembly.pushSchema info {}
        pure s.id : Construction (Id .schema)) fun i => Assembly.HasSchema i :=
    fun info => (evolves_pushSchema info {}).bind fun s => .pure fun _ h => h
  apply Evolves.state
  intro a
  dsimp only
  split
  · rename_i s hs
    have hmem : a.HasSchema s.id := ⟨s, List.mem_of_find?_eq_some hs, rfl⟩
    split
    · apply Evolves.bind
      · apply (evolves_markDefault.keeps fun _ _ => Assembly.HasSchema.change).imp
        · rintro _ ⟨-, rfl⟩
          exact hmem
        · exact fun _ _ h => h
      · exact fun _ => .pure fun _ h => h
    · apply Evolves.pure
      rintro _ ⟨-, rfl⟩
      exact hmem
  · split
    · apply Evolves.bind (evolves_markDefault.imp (fun _ _ => trivial) fun _ _ h => h)
      exact fun _ => create _
    · exact (create _).imp (fun _ _ => trivial) fun _ _ h => h

theorem evolves_route (schemaName : Option String) :
    Evolves .opening (fun _ => True) (Assembly.route schemaName) fun i => Assembly.HasSchema i := by
  unfold Assembly.route
  apply Evolves.state
  exact fun a => (evolves_getOrCreateSchema _).imp (fun _ _ => trivial) fun _ _ h => h

section Routed

variable {δ ε : Type} {schemaName : δ → Option String} {push : Id .schema → δ → Construction ε}
  {entity : ε → Entity} {k : Kind}
  (h : ∀ a s id d, a.database.schema? id = some s →
    (push id d).Meets a (fun v b => a.Inserts s (entity v) b) fun _ b => a.Spent b)
  (hk : ∀ v, (entity v).kind = k)
include h hk

/-- Inserting a record into the schema that it names. -/
theorem evolves_routedRecord (d : δ) :
    Evolves (.of k) (fun _ => True) (Assembly.routed schemaName push d) fun _ _ => True := by
  unfold Assembly.routed
  apply ((evolves_route (schemaName d)).within (Remit.opening_within k)).bind
  intro id
  exact ((evolves_insert (fun a s hs => h a s id d hs) hk).within (Remit.into_within id k)).imp
    (fun _ h => h) fun _ _ _ => trivial

/-- Inserting records of one kind into the schemas that they name. -/
theorem evolves_routed {ds : List δ} :
    Evolves (.of k) (fun _ => True) (Attempt.forEach (Assembly.routed schemaName push) ds)
      fun _ _ => True :=
  Evolves.forEach (fun d => evolves_routedRecord h hk d) ds

end Routed

/-! Binding enums. -/

theorem changes_bindEnums {m : Remit} (hm : m.binds) (es : List Enum) (a : Assembly) :
    Assembly.Changes m a ⟨es.foldl (fun db e => db.bindEnum e.id) a.database, a.ids⟩ := by
  induction es generalizing a with
  | nil => exact .refl
  | cons e es ih => exact .head (.bindEnum e.id hm) (ih ⟨a.database.bindEnum e.id, a.ids⟩)

theorem evolves_bindRemaining :
    Evolves .binding (fun _ => True) Assembly.bindRemaining fun _ _ => True := by
  apply Evolves.modify
  intro a _
  split
  · exact .refl
  · exact changes_bindEnums trivial _ a

/-- Performing an operation proceeds by changes. -/
theorem Operation.changes {op : Operation} {a : Assembly} (h : op.AppliesTo a.database) :
    Assembly.Changes .full a (a.after op) := by
  have answered : ∀ {α : Type} {P : Assembly → Prop} {x : Construction α} {m : Remit}
      {R : α → Assembly → Prop} (f : α → Outcome), P a → Evolves m P x R →
        Assembly.Changes .full a (((do let v ← x; pure (f v)) : Construction Outcome).run a).2 := by
    intro α P x m R f ha hx
    have hboth : Evolves .full P (do let v ← x; pure (f v)) fun _ _ => True :=
      (hx.within (Remit.within_full m)).bind fun _ => .pure fun _ _ => trivial
    exact hboth.changes ha
  cases op with
  | getOrCreateSchema name => exact answered _ trivial (evolves_getOrCreateSchema name)
  | pushSchema info token => exact answered _ trivial (evolves_pushSchema info token)
  | process id d => exact answered (fun _ => .done) h (evolves_process d)
  | pushTable id d =>
    exact answered _ h (evolves_insert (fun _ _ hs => Assembly.meets_pushTable hs d) fun _ => rfl)
  | pushEnum id d =>
    exact answered _ h (evolves_insert (fun _ _ hs => Assembly.meets_pushEnum hs d) fun _ => rfl)
  | pushRef id d =>
    exact answered _ h (evolves_insert (fun _ _ hs => Assembly.meets_pushRef hs d) fun _ => rfl)
  | pushTableGroup id d =>
    exact answered _ h
      (evolves_insert (fun _ _ hs => Assembly.meets_pushTableGroup hs d) fun _ => rfl)
  | pushTag id d =>
    exact answered _ h (evolves_insert (fun _ _ hs => Assembly.meets_pushTag hs d) fun _ => rfl)
  | bindEnum i => exact .single (.bindEnum i trivial)
  | bindEnums => exact changes_bindEnums trivial _ a

end Catalog
