import Catalog.Assembly.Build
import Catalog.Proofs.Mirror.Resolve

/-!
Databases without what binding enums does to them: the links between enums and fields, and the
configuration that says when to draw them. No look-up and no check goes by these.
-/
namespace Catalog

def Field.unbound (f : Field) : Field :=
  { f with enumId := none }

def Enum.unbound (e : Enum) : Enum :=
  { e with fields := [] }

def Table.unbound (t : Table) : Table :=
  { t with fields := t.fields.map (·.unbound) }

def Schema.unbound (s : Schema) : Schema :=
  { s with tables := s.tables.map (·.unbound), enums := s.enums.map (·.unbound) }

def Database.unbound (db : Database) : Database :=
  { db with
    config := db.config.withEnumBinding default, schemas := db.schemas.map (·.unbound) }

def Assembly.unbound (a : Assembly) : Assembly :=
  { a with database := a.database.unbound }

theorem Table.findField?_unbound (t : Table) (name : String) :
    t.unbound.findField? name = (t.findField? name).map (·.unbound) :=
  List.find?_map

theorem Schema.findTable?_unbound (s : Schema) (name : String) :
    s.unbound.findTable? name = (s.findTable? name).map (·.unbound) :=
  List.find?_map

theorem Schema.names_unbound (s : Schema) (sort : ChildSort) :
    s.unbound.names sort = s.names sort := by
  cases sort <;> simp only [names, unbound, List.map_map] <;> rfl

theorem resolveFields_unbound (s : Schema) (t : Table) (token : Span)
    (earlier : List (Id .field)) (names : List String) :
    resolveFields s.unbound t.unbound token earlier names
      = resolveFields s t token earlier names := by
  induction names generalizing earlier with
  | nil => rfl
  | cons name names ih =>
    rw [resolveFields_cons, resolveFields_cons, t.findField?_unbound]
    cases t.findField? name with
    | none => rfl
    | some f =>
      change (if f.id ∈ earlier then _ else
        (resolveFields s.unbound t.unbound token (f.id :: earlier) names).map (f.id :: ·)) = _
      rw [ih]

namespace Database

variable (db : Database)

theorem any_schemas_unbound (p : SchemaInfo → Bool) :
    (db.unbound.schemas.any fun s => p s.toSchemaInfo) = db.schemas.any fun s => p s.toSchemaInfo :=
  List.any_map

theorem findSchema?_unbound (name : String) :
    db.unbound.findSchema? name = (db.findSchema? name).map (·.unbound) :=
  List.find?_map

theorem schema?_unbound (id : Id .schema) :
    db.unbound.schema? id = (db.schema? id).map (·.unbound) :=
  List.find?_map

theorem tables_unbound : db.unbound.tables = db.tables.map (·.unbound) := by
  simp only [tables, unbound, List.flatMap_map, List.map_flatMap, Schema.unbound]

theorem enums_unbound : db.unbound.enums = db.enums.map (·.unbound) := by
  simp only [enums, unbound, List.flatMap_map, List.map_flatMap, Schema.unbound]

theorem fields_unbound : db.unbound.fields = db.fields.map (·.unbound) := by
  simp only [fields, tables_unbound, List.flatMap_map, List.map_flatMap, Table.unbound]

theorem indexes_unbound : db.unbound.indexes = db.indexes := by
  simp only [indexes, tables_unbound, List.flatMap_map, Table.unbound]

theorem tags_unbound : db.unbound.tags = db.tags := by
  simp only [tags, unbound, List.flatMap_map, Schema.unbound]

theorem refs_unbound : db.unbound.refs = db.refs := by
  simp only [refs, unbound, List.flatMap_map, Schema.unbound]

theorem tableGroups_unbound : db.unbound.tableGroups = db.tableGroups := by
  simp only [tableGroups, unbound, List.flatMap_map, Schema.unbound]

theorem schemaOfTable?_unbound (id : Id .table) :
    db.unbound.schemaOfTable? id = (db.schemaOfTable? id).map (·.unbound) := by
  have hany : ∀ s : Schema, (s.unbound.tables.any (·.id = id)) = s.tables.any (·.id = id) :=
    fun s => List.any_map
  unfold schemaOfTable? unbound
  rw [List.find?_map]
  simp only [Function.comp_def, hany]

theorem table?_unbound (id : Id .table) :
    db.unbound.table? id = (db.table? id).map (·.unbound) := by
  rw [table?, tables_unbound, List.find?_map]
  rfl

theorem locate_unbound (schema : Option String) (table : String) :
    db.unbound.locate schema table
      = (db.locate schema table).map (Option.map (Prod.map (·.unbound) (·.unbound))) := by
  have hname : db.unbound.config.defaultSchemaName = db.config.defaultSchemaName := rfl
  unfold locate
  simp only [hname, findSchema?_unbound]
  cases db.findSchema? (schema.getD db.config.defaultSchemaName) with
  | none => rfl
  | some s =>
    change Except.ok _ = Except.ok _
    rw [s.findTable?_unbound, Option.map_map, Option.map_map]
    rfl

theorem resolveTable_unbound (schema : Option String) (table : String) (token : Span) :
    db.unbound.resolveTable schema table token
      = (db.resolveTable schema table token).map (Prod.map (·.unbound) (·.unbound)) := by
  unfold resolveTable
  rw [locate_unbound]
  rcases db.locate schema table with r | _ | ⟨s, t⟩ <;> rfl

theorem resolveEndpoint_unbound (token : Span) (d : Decl.Endpoint) :
    db.unbound.resolveEndpoint token d = db.resolveEndpoint token d := by
  unfold resolveEndpoint
  simp only [resolveTable_unbound]
  rcases db.resolveTable d.schemaName d.tableName (d.token.orElse token) with r | ⟨s, t⟩
  · rfl
  · simp only [Except.map, Prod.map, bind, Except.bind, resolveFields_unbound]
    rfl

theorem resolveRef_unbound (d : Decl.Ref) : db.unbound.resolveRef d = db.resolveRef d := by
  simp only [resolveRef, resolveEndpoint_unbound]

theorem resolveMembers_unbound (token : Span) (found : List Table) (ms : List Decl.Member) :
    db.unbound.resolveMembers token (found.map (·.unbound)) ms
      = (db.resolveMembers token found ms).map (List.map (·.unbound)) := by
  induction ms generalizing found with
  | nil => rfl
  | cons m ms ih =>
    unfold resolveMembers
    rw [resolveTable_unbound]
    rcases db.resolveTable m.schemaName m.name (m.token.orElse token) with r | ⟨s, t⟩
    · rfl
    · have hany : ((found.map (·.unbound)).any fun u => decide (u.id = t.id))
          = found.any fun u => decide (u.id = t.id) := List.any_map
      have hfound : (if (found.map (·.unbound)).any fun u => decide (u.id = t.id) then
            found.map (·.unbound) else found.map (·.unbound) ++ [t.unbound])
          = (if found.any fun u => decide (u.id = t.id) then found else found ++ [t]).map
              (·.unbound) := by
        rw [hany, apply_ite (List.map _), List.map_append]
        rfl
      change db.unbound.resolveMembers token (if (found.map (·.unbound)).any fun u =>
        decide (u.id = t.id) then found.map (·.unbound) else found.map (·.unbound) ++ [t.unbound])
          ms = _
      rw [hfound, ih]
      rfl

theorem firstGrouped?_unbound (ts : List Table) :
    firstGrouped? (ts.map (·.unbound)) = firstGrouped? ts :=
  List.findSome?_map

theorem qualifiedTableName?_unbound (id : Id .table) :
    db.unbound.qualifiedTableName? id = db.qualifiedTableName? id := by
  unfold qualifiedTableName?
  rw [schemaOfTable?_unbound]
  cases db.schemaOfTable? id with
  | none => rfl
  | some s =>
    change ((s.tables.map (·.unbound)).find? (·.id = id)).bind _ = _
    rw [List.find?_map, Option.bind_map]
    rfl

end Database

/-! The checks of drafts. -/

namespace Assembly

variable (db : Database) (id : Id .schema)

theorem checkName_unbound (sort : ChildSort) (name : String) (token : Span) :
    checkName db.unbound id sort name token = checkName db id sort name token := by
  unfold checkName
  rw [db.schema?_unbound]
  cases db.schema? id with
  | none => rfl
  | some s =>
    change (if name ∈ s.unbound.names sort then _ else _) = _
    rw [s.names_unbound]
    rfl

theorem checkRef_unbound (r : Ref) : checkRef db.unbound id r = checkRef db id r := by
  unfold checkRef
  rw [db.schema?_unbound]
  cases db.schema? id <;> rfl

theorem checkUngrouped_unbound (ts : List Table) (token : Span) :
    checkUngrouped db.unbound (ts.map (·.unbound)) token = checkUngrouped db ts token := by
  unfold checkUngrouped
  simp only [Database.firstGrouped?_unbound, db.qualifiedTableName?_unbound, Database.tableGroup?,
    db.tableGroups_unbound]

end Assembly

end Catalog
