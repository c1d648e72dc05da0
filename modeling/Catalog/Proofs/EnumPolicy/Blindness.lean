import Catalog.Proofs.EnumPolicy.Parallel

/-!
Nothing that a build does depends on enum links, so the policy on drawing them has no say in its
outcome.
-/
namespace Catalog

/-! Binding tags reads tables by identifier and by what they mention. -/

theorem bindTables_unbound (tags : List Tag) (ts : List Table) :
    bindTables tags (ts.map (·.unbound))
      = Prod.map (List.map Table.unbound) id <$> bindTables tags ts := by
  induction ts generalizing tags with
  | nil => rfl
  | cons t ts ih =>
    rw [List.map_cons, bindTables, bindTables]
    simp only [ih, map_bind, bind_map_left, map_pure]
    rfl

theorem Schema.bindTags_unbound (s : Schema) : s.unbound.bindTags = unbound <$> s.bindTags := by
  have htables := bindTables_unbound s.tags s.tables
  change bindTables s.unbound.tags s.unbound.tables = _ at htables
  unfold bindTags
  simp only [htables, map_bind, bind_map_left, map_pure]
  rfl

theorem Attempt.mapEach_map {σ α β : Type} {f : α → Attempt σ β} {e : α → α} {g : β → β}
    (h : ∀ a, f (e a) = g <$> f a) (as : List α) :
    mapEach f (as.map e) = List.map g <$> mapEach f as := by
  induction as with
  | nil => rfl
  | cons a as ih =>
    rw [List.map_cons]
    unfold mapEach
    simp only [h, ih, map_bind, bind_map_left, map_pure, List.map_cons]

namespace Assembly

theorem blind_bindTags : Blind bindTags := by
  have hinsert : Parallel (fun ss ss' => ss.map Schema.unbound = ss'.map Schema.unbound)
      (insert (fun db => Attempt.mapEach Schema.bindTags db.schemas)
        fun db schemas => { db with schemas })
      (insert (fun db => Attempt.mapEach Schema.bindTags db.schemas)
        fun db schemas => { db with schemas }) := by
    apply Parallel.insert
    · exact fun db => Attempt.mapEach_map Schema.bindTags_unbound db.schemas
    · intro db db' ss ss' h hss
      change { db.unbound with schemas := ss.map Schema.unbound }
        = { db'.unbound with schemas := ss'.map Schema.unbound }
      rw [h, hss]
  exact hinsert.bind fun _ _ _ => Parallel.pure rfl

/-! Insertions. -/

variable (id : Id .schema)

theorem blind_pushSchema (info : SchemaInfo) (token : Span) : Blind (pushSchema info token) := by
  apply Blind.insert
  · intro db
    simp only [db.any_schemas_unbound fun s => s.collides info]
  · intro db db' s h
    rw [db.unbound_addSchema, db'.unbound_addSchema, h]

theorem blind_pushTable (d : Decl.Table) : Blind (pushTable id d) := by
  apply Blind.insert
  · intro db
    simp only [checkName_unbound]
  · intro db db' t h
    rw [db.unbound_addTable, db'.unbound_addTable, h]

theorem blind_pushTag (d : Decl.Tag) : Blind (pushTag id d) := by
  apply Blind.insert
  · intro db
    simp only [checkName_unbound]
  · intro db db' t h
    rw [db.unbound_addTag, db'.unbound_addTag, h]

theorem blind_pushEnum (d : Decl.Enum) : Blind (pushEnum id d) := by
  apply Blind.insert
  · intro db
    simp only [checkName_unbound]
  · intro db db' e h
    rw [db.unbound_addEnum, db'.unbound_addEnum, h]

theorem blind_pushRef (d : Decl.Ref) : Blind (pushRef id d) := by
  apply Blind.insert
  · intro db
    simp only [Database.resolveRef_unbound, checkRef_unbound]
  · intro db db' r h
    rw [db.unbound_addRef, db'.unbound_addRef, h]

theorem blind_pushTableGroup (d : Decl.TableGroup) : Blind (pushTableGroup id d) := by
  apply Blind.insert
  · intro db
    have hresolve := db.resolveMembers_unbound d.token [] d.tables
    rw [List.map_nil] at hresolve
    simp only [hresolve, checkName_unbound]
    rcases db.resolveMembers d.token [] d.tables with r | ts
    · rfl
    · simp only [Except.map, Attempt.ofExcept_ok, pure_bind, checkUngrouped_unbound, List.map_map]
      rfl
  · intro db db' g h
    rw [db.unbound_addTableGroup, db'.unbound_addTableGroup, h]

/-! Schemas by name. -/

theorem blind_markDefault : Blind markDefault :=
  Blind.modify fun _ => rfl

theorem blind_getOrCreateSchema (name : String) : Blind (getOrCreateSchema name) := by
  apply Parallel.state
  intro a a' ha
  have hdb : a.database.unbound = a'.database.unbound := congrArg (·.database) ha
  have hdefault : a.database.config.defaultSchemaName = a'.database.config.defaultSchemaName :=
    congrArg (·.config.defaultSchemaName) hdb
  have hnote : a.database.config.defaultSchemaNote = a'.database.config.defaultSchemaNote :=
    congrArg (·.config.defaultSchemaNote) hdb
  have hfind : (a.database.findSchema? name).map (·.unbound)
      = (a'.database.findSchema? name).map (·.unbound) := by
    rw [← Database.findSchema?_unbound, ← Database.findSchema?_unbound, hdb]
  dsimp only
  rw [hdefault, hnote]
  rcases hs : a.database.findSchema? name with _ | s <;>
    rcases hs' : a'.database.findSchema? name with _ | s' <;>
    simp only [hs, hs', Option.map_none, Option.map_some, reduceCtorEq, Option.some.injEq] at hfind
  · dsimp only
    have hpush : ∀ info, Blind (do let s ← pushSchema info {}; pure s.id) :=
      fun info => (blind_pushSchema info {}).bind fun _ => Parallel.pure rfl
    split
    · exact blind_markDefault.bind fun _ => hpush _
    · exact hpush _
  · have hid : s.id = s'.id := congrArg (·.id) hfind
    have hname : s.name = s'.name := congrArg (·.name) hfind
    dsimp only
    rw [hid, hname]
    split
    · exact blind_markDefault.bind fun _ => Parallel.pure rfl
    · exact Parallel.pure rfl

theorem blind_route (schemaName : Option String) : Blind (route schemaName) := by
  apply Parallel.state
  intro a a' ha
  have hname : a.database.config.defaultSchemaName = a'.database.config.defaultSchemaName :=
    congrArg (·.database.config.defaultSchemaName) ha
  simp only [hname]
  exact blind_getOrCreateSchema _

theorem blind_routed {δ ε : Type} {schemaName : δ → Option String}
    {push : Id .schema → δ → Construction ε} (h : ∀ id d, Blind (push id d)) (d : δ) :
    Blind (routed schemaName push d) :=
  (blind_route (schemaName d)).bind fun id => h id d

theorem blind_markIfDefault : Blind (markIfDefault id) := by
  apply Blind.modify
  intro a
  have hschema : a.unbound.database.schema? id = (a.database.schema? id).map (·.unbound) :=
    a.database.schema?_unbound id
  rw [hschema]
  cases a.database.schema? id with
  | none => rfl
  | some s =>
    have hempty : s.unbound.isEmpty = s.isEmpty := by
      simp only [Schema.isEmpty, Schema.unbound, List.isEmpty_map]
    rw [Option.map_some]
    dsimp only
    rw [hempty]
    exact apply_ite Assembly.unbound _ _ _

theorem blind_process (d : Decl.Schema) : Blind (process id d) :=
  (Blind.forEach (blind_pushTable id) d.tables).bind fun _ =>
  (Blind.forEach (blind_pushTag id) d.tags).bind fun _ =>
  (Blind.forEach (blind_pushEnum id) d.enums).bind fun _ =>
  (Blind.forEach (blind_pushRef id) d.refs).bind fun _ =>
  Blind.forEach (blind_pushTableGroup id) d.tableGroups

theorem blind_declareSchema (d : Decl.Schema) : Blind (declareSchema d) :=
  (blind_pushSchema d.toSchemaInfo d.token).bind fun s =>
  (blind_process s.id d).bind fun _ => blind_markIfDefault s.id

theorem blind_bindRemaining : Blind bindRemaining := by
  apply Blind.modify
  intro a
  change _ = a.unbound
  split
  · rfl
  · exact congrArg (Assembly.mk · a.ids) a.database.unbound_bindEnums

theorem blind_addBundle (b : Decl.Bundle) : Blind (addBundle b) :=
  (Blind.forEach blind_declareSchema b.schemas).bind fun _ =>
  (Blind.forEach (blind_routed blind_pushTable) b.tables).bind fun _ =>
  (Blind.forEach (blind_routed blind_pushTag) b.tags).bind fun _ =>
  blind_bindTags.bind fun _ =>
  (Blind.forEach (blind_routed blind_pushRef) b.refs).bind fun _ =>
  (Blind.forEach (blind_routed blind_pushEnum) b.enums).bind fun _ =>
  (Blind.forEach (blind_routed blind_pushTableGroup) b.tableGroups).bind fun _ =>
  blind_bindRemaining

/-- Under two policies a build is rejected for one reason, or comes to databases that differ in enum
links at most. -/
theorem build_withEnumBinding (b : Decl.Bundle) (c : Config) (p q : EnumBinding) :
    (∃ r, build b (c.withEnumBinding p) = .error r ∧ build b (c.withEnumBinding q) = .error r) ∨
    ∃ a a', build b (c.withEnumBinding p) = .ok a ∧ build b (c.withEnumBinding q) = .ok a' ∧
      a.unbound = a'.unbound := by
  have hsame := blind_addBundle b (start (c.withEnumBinding p) b.project)
    (start (c.withEnumBinding q) b.project) rfl
  unfold build
  generalize (addBundle b).run (start (c.withEnumBinding p) b.project) = x at hsame
  generalize (addBundle b).run (start (c.withEnumBinding q) b.project) = y at hsame
  cases hsame with
  | ok _ hb => exact .inr ⟨_, _, rfl, rfl, hb⟩
  | error _ => exact .inl ⟨_, rfl, rfl⟩

end Assembly

end Catalog
