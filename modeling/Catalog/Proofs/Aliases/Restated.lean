import Catalog.Assembly.Build
import Catalog.Proofs.EnumPolicy.Blindness

/-!
Databases whose endpoints say something else about themselves. What an endpoint was declared with is
kept for display; no look-up, no check and no link goes by it, so it changes nothing but itself.
-/
namespace Catalog

/-- What each endpoint is to say about itself. -/
abbrev Statement := Id .endpoint → EndpointInfo

variable (σ : Statement)

def Endpoint.restate (e : Endpoint) : Endpoint :=
  { e with toEndpointInfo := σ e.id }

def Ref.restate (r : Ref) : Ref :=
  { r with first := r.first.restate σ, second := r.second.restate σ }

def Schema.restate (s : Schema) : Schema :=
  { s with refs := s.refs.map (·.restate σ) }

def Database.restate (db : Database) : Database :=
  { db with schemas := db.schemas.map (·.restate σ) }

def Assembly.restate (a : Assembly) : Assembly :=
  { a with database := a.database.restate σ }

theorem Schema.names_restate (s : Schema) (sort : ChildSort) :
    (s.restate σ).names sort = s.names sort := by
  cases sort <;> rfl

namespace Database

variable (db : Database)

/-! What there is apart from refs. -/

theorem tables_restate : (db.restate σ).tables = db.tables := by
  simp only [tables, restate, List.flatMap_map, Schema.restate]

theorem enums_restate : (db.restate σ).enums = db.enums := by
  simp only [enums, restate, List.flatMap_map, Schema.restate]

theorem tableGroups_restate : (db.restate σ).tableGroups = db.tableGroups := by
  simp only [tableGroups, restate, List.flatMap_map, Schema.restate]

theorem fields_restate : (db.restate σ).fields = db.fields := by
  simp only [fields, tables_restate]

theorem indexes_restate : (db.restate σ).indexes = db.indexes := by
  simp only [indexes, tables_restate]

theorem refs_restate : (db.restate σ).refs = db.refs.map (·.restate σ) := by
  simp only [refs, restate, List.flatMap_map, List.map_flatMap, Schema.restate]

/-! Look-ups. -/

theorem findSchema?_restate (name : String) :
    (db.restate σ).findSchema? name = (db.findSchema? name).map (·.restate σ) :=
  List.find?_map

theorem schema?_restate (id : Id .schema) :
    (db.restate σ).schema? id = (db.schema? id).map (·.restate σ) :=
  List.find?_map

theorem schemaOfTable?_restate (id : Id .table) :
    (db.restate σ).schemaOfTable? id = (db.schemaOfTable? id).map (·.restate σ) :=
  List.find?_map

theorem schemaOfEnum?_restate (id : Id .enum) :
    (db.restate σ).schemaOfEnum? id = (db.schemaOfEnum? id).map (·.restate σ) :=
  List.find?_map

theorem qualifiedTableName?_restate (id : Id .table) :
    (db.restate σ).qualifiedTableName? id = db.qualifiedTableName? id := by
  unfold qualifiedTableName?
  rw [schemaOfTable?_restate]
  cases db.schemaOfTable? id <;> rfl

theorem locate_restate (schema : Option String) (table : String) :
    (db.restate σ).locate schema table
      = (db.locate schema table).map (Option.map fun found => (found.1.restate σ, found.2)) := by
  have hname : (db.restate σ).config.defaultSchemaName = db.config.defaultSchemaName := rfl
  unfold locate
  simp only [hname, findSchema?_restate]
  cases db.findSchema? (schema.getD db.config.defaultSchemaName) with
  | none => rfl
  | some s =>
    change Except.ok ((s.findTable? table).map _) = Except.ok (((s.findTable? table).map _).map _)
    rw [Option.map_map]
    rfl

theorem resolveTable_restate (schema : Option String) (table : String) (token : Span) :
    (db.restate σ).resolveTable schema table token
      = (db.resolveTable schema table token).map fun found => (found.1.restate σ, found.2) := by
  unfold resolveTable
  rw [locate_restate]
  rcases db.locate schema table with r | _ | ⟨s, t⟩ <;> rfl

theorem resolveFields_restate (s : Schema) (t : Table) (token : Span) (earlier : List (Id .field))
    (names : List String) :
    resolveFields (s.restate σ) t token earlier names = resolveFields s t token earlier names := by
  induction names generalizing earlier with
  | nil => rfl
  | cons name names ih =>
    rw [resolveFields_cons, resolveFields_cons]
    cases t.findField? name with
    | none => rfl
    | some f =>
      dsimp only
      rw [ih]

theorem resolveEndpoint_restate (token : Span) (d : Decl.Endpoint) :
    (db.restate σ).resolveEndpoint token d = db.resolveEndpoint token d := by
  unfold resolveEndpoint
  simp only [resolveTable_restate]
  rcases db.resolveTable d.schemaName d.tableName (d.token.orElse token) with r | ⟨s, t⟩
  · rfl
  · simp only [Except.map, bind, Except.bind, resolveFields_restate]

theorem resolveRef_restate (d : Decl.Ref) : (db.restate σ).resolveRef d = db.resolveRef d := by
  simp only [resolveRef, resolveEndpoint_restate]

theorem resolveMembers_restate (token : Span) (found : List Table) (ms : List Decl.Member) :
    (db.restate σ).resolveMembers token found ms = db.resolveMembers token found ms := by
  induction ms generalizing found with
  | nil => rfl
  | cons m ms ih =>
    unfold resolveMembers
    rw [resolveTable_restate]
    rcases db.resolveTable m.schemaName m.name (m.token.orElse token) with r | ⟨s, t⟩
    · rfl
    · exact ih _

theorem matchesEnum_restate (id : Id .enum) : (db.restate σ).matchesEnum id = db.matchesEnum id := by
  funext f
  unfold matchesEnum
  rw [schemaOfEnum?_restate, enum?, enums_restate, ← enum?]
  cases db.schemaOfEnum? id <;> cases db.enum? id <;> rfl

/-! Changes. -/

theorem restate_updateSchema (id : Id .schema) {f g : Schema → Schema}
    (h : ∀ s, (f s).restate σ = g (s.restate σ)) :
    (db.updateSchema id f).restate σ = (db.restate σ).updateSchema id g := by
  simp only [updateSchema, restate, List.map_map]
  congr 1
  apply List.map_congr_left
  intro s _
  simp only [Function.comp_apply, apply_ite (Schema.restate σ), h]
  rfl

theorem restate_addSchema (s : Schema) :
    (db.addSchema s).restate σ = (db.restate σ).addSchema (s.restate σ) := by
  simp only [addSchema, restate, List.map_append, List.map_singleton]

theorem restate_mapTables (f : Table → Table) :
    (db.mapTables f).restate σ = (db.restate σ).mapTables f := by
  simp only [mapTables, restate, List.map_map]
  rfl

theorem restate_mapEnums (f : Enum → Enum) :
    (db.mapEnums f).restate σ = (db.restate σ).mapEnums f := by
  simp only [mapEnums, restate, List.map_map]
  rfl

theorem restate_addTable (id : Id .schema) (t : Table) :
    (db.addTable id t).restate σ = (db.restate σ).addTable id t :=
  db.restate_updateSchema σ id fun _ => rfl

theorem restate_addTag (id : Id .schema) (t : Tag) :
    (db.addTag id t).restate σ = (db.restate σ).addTag id t :=
  db.restate_updateSchema σ id fun _ => rfl

theorem restate_bindEnum (id : Id .enum) :
    (db.bindEnum id).restate σ = (db.restate σ).bindEnum id := by
  unfold bindEnum mapFields
  simp only [matchingFields, fields_restate, matchesEnum_restate, restate_mapEnums,
    restate_mapTables]

theorem restate_bindEnums : db.bindEnums.restate σ = (db.restate σ).bindEnums := by
  have hfold : ∀ (es : List Enum) (db : Database),
      (es.foldl (fun db e => db.bindEnum e.id) db).restate σ
        = es.foldl (fun db e => db.bindEnum e.id) (db.restate σ) := by
    intro es
    induction es with
    | nil => exact fun _ => rfl
    | cons e es ih =>
      intro db
      rw [List.foldl_cons, List.foldl_cons, ih, restate_bindEnum]
  unfold bindEnums
  rw [hfold, enums_restate]

theorem restate_addEnum (id : Id .schema) (e : Enum) :
    (db.addEnum id e).restate σ = (db.restate σ).addEnum id e := by
  have hinsert : (db.updateSchema id (·.insert (.enum e))).restate σ
      = (db.restate σ).updateSchema id (·.insert (.enum e)) :=
    db.restate_updateSchema σ id fun _ => rfl
  rcases db.addEnum_cases id e with ⟨hbinding, heq⟩ | ⟨hbinding, heq⟩ <;>
    rcases (db.restate σ).addEnum_cases id e with ⟨hbinding', heq'⟩ | ⟨hbinding', heq'⟩
  · rw [heq, heq', hinsert]
  · cases hbinding.symm.trans hbinding'
  · cases hbinding.symm.trans hbinding'
  · rw [heq, heq', restate_bindEnum, hinsert]

theorem restate_addRef (id : Id .schema) (r : Ref) :
    (db.addRef id r).restate σ = (db.restate σ).addRef id (r.restate σ) := by
  unfold addRef mapFields
  rw [← restate_mapTables]
  apply restate_updateSchema
  intro s
  simp only [Schema.restate, List.map_append, List.map_singleton]

theorem restate_addTableGroup (id : Id .schema) (g : TableGroup) :
    (db.addTableGroup id g).restate σ = (db.restate σ).addTableGroup id g := by
  unfold addTableGroup
  rw [← restate_mapTables]
  exact restate_updateSchema σ _ id fun _ => rfl

end Database

/-! The checks of drafts. -/

namespace Assembly

variable (db : Database) (id : Id .schema)

theorem checkName_restate (sort : ChildSort) (name : String) (token : Span) :
    checkName (db.restate σ) id sort name token = checkName db id sort name token := by
  unfold checkName
  rw [db.schema?_restate]
  cases db.schema? id with
  | none => rfl
  | some s =>
    change (if name ∈ (s.restate σ).names sort then _ else _) = _
    rw [s.names_restate]
    rfl

theorem checkRef_restate (r : Ref) :
    checkRef (db.restate σ) id (r.restate σ) = checkRef db id r := by
  unfold checkRef
  rw [db.schema?_restate]
  cases db.schema? id with
  | none => rfl
  | some s =>
    have hany : ((s.restate σ).refs.any fun other => (r.restate σ).connectsSame other)
        = s.refs.any fun other => r.connectsSame other := List.any_map
    simp only [Option.map_some, hany]
    rfl

theorem checkUngrouped_restate (ts : List Table) (token : Span) :
    checkUngrouped (db.restate σ) ts token = checkUngrouped db ts token := by
  unfold checkUngrouped
  simp only [db.qualifiedTableName?_restate, Database.tableGroup?, db.tableGroups_restate]

end Assembly

theorem Schema.bindTags_restate (s : Schema) :
    (s.restate σ).bindTags = restate σ <$> s.bindTags := by
  unfold bindTags
  simp only [map_bind, map_pure]
  rfl

end Catalog
