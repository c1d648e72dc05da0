import Catalog.Assembly.Ref
import Catalog.Store

/-!
Drafting records: an entity and what it owns, with new identifiers. Each record is told its owner as
it is made.
-/
namespace Catalog.Stored

/-- Records with names that differ from one another and from those of earlier records. -/
def draftDistinct {δ ρ : Type} (k : Kind) (name : δ → String) (repeated : δ → Rejection)
    (make : δ → Id k → ρ) (earlier : List String) : List δ → Drafting (List ρ)
  | [] => pure []
  | d :: ds => do
    let id ← issue k
    if name d ∈ earlier then .reject (repeated d)
    else
      let rs ← draftDistinct k name repeated make (name d :: earlier) ds
      pure (make d id :: rs)

/-- A table with the records of what it owns. -/
structure TableDraft where
  table : Table
  fields : List Field
  indexes : List Index
  indexColumns : List IndexColumn

def draftField (table : Id .table) (d : Decl.Field) (id : Id .field) : Field :=
  { toFieldInfo := d.toFieldInfo, id, token := d.token, table }

def draftColumn (index : Id .index) (d : Decl.IndexColumn) : Drafting IndexColumn := do
  pure { toIndexColumnInfo := d.toIndexColumnInfo, id := ← issue .indexColumn, token := d.token,
         index }

def draftIndex (table : Id .table) (d : Decl.Index) : Drafting (Index × List IndexColumn) := do
  let id ← issue .index
  let columns ← Attempt.mapEach (draftColumn id) d.columns
  pure ({ toIndexInfo := d.toIndexInfo, id, token := d.token, table,
          columns := columns.map (·.id) }, columns)

def draftTable (schema : Id .schema) (d : Decl.Table) : Drafting TableDraft := do
  let id ← issue .table
  let fields ← draftDistinct .field (·.name)
    (fun f => { cause := .duplicateField d.name f.name, span := f.token }) (draftField id) []
    d.fields
  let indexes ← Attempt.mapEach (draftIndex id) d.indexes
  pure {
    table := { toTableInfo := d.toTableInfo, id, token := d.token, schema,
               fields := fields.map (·.id), indexes := indexes.map (·.1.id), mentions := d.tags }
    fields
    indexes := indexes.map (·.1)
    indexColumns := indexes.flatMap (·.2) }

def draftValue (enumId : Id .enum) (d : Decl.EnumValue) (id : Id .enumValue) : EnumValue :=
  { toEnumValueInfo := d.toEnumValueInfo, id, token := d.token, enumId }

structure EnumDraft where
  enum : Enum
  values : List EnumValue

def draftEnum (schema : Id .schema) (d : Decl.Enum) : Drafting EnumDraft := do
  let id ← issue .enum
  let values ← draftDistinct .enumValue (·.name)
    (fun v => { cause := .duplicateEnumValue d.name v.name, span := v.token }) (draftValue id) []
    d.values
  pure {
    enum := { toEnumInfo := d.toEnumInfo, id, token := d.token, schema,
              values := values.map (·.id) }
    values }

def draftEndpoint (ref : Id .ref) (e : Resolved) : Drafting Endpoint := do
  pure { toEndpointInfo := e.declared.toEndpointInfo, id := ← issue .endpoint,
         token := e.declared.token, ref, table := e.table, fields := e.fields }

structure RefDraft where
  ref : Ref
  endpoints : List Endpoint

def draftRef (schema : Id .schema) (d : Decl.Ref) (resolved : List Resolved) :
    Drafting RefDraft := do
  let id ← issue .ref
  let endpoints ← Attempt.mapEach (draftEndpoint id) resolved
  pure {
    ref := { toRefInfo := d.toRefInfo, id, token := d.token, schema,
             endpoints := endpoints.map (·.id) }
    endpoints }

def draftTableGroup (schema : Id .schema) (d : Decl.TableGroup) (tables : List (Id .table)) :
    Drafting TableGroup := do
  pure { toTableGroupInfo := d.toTableGroupInfo, id := ← issue .tableGroup, token := d.token,
         schema, tables }

def draftTag (schema : Id .schema) (d : Decl.Tag) : Drafting Tag := do
  pure { toTagInfo := d.toTagInfo, id := ← issue .tag, token := d.token, schema }

/-- A tag that a table mentions and its schema does not have yet. -/
def draftMention (schema : Id .schema) (m : Decl.Mention) : Drafting Tag := do
  pure { name := m.name, id := ← issue .tag, token := m.token, schema }

def draftSchema (database : Id .database) (info : SchemaInfo) (token : Span) :
    Drafting Schema := do
  pure { toSchemaInfo := info, id := ← issue .schema, token, database }

/-- Whether the endpoints of a draft cover the same fields as the two of a stored ref. -/
def sameEndpoints (drafted stored : List Endpoint) : Bool :=
  match stored with
  | [first, second] =>
    drafted.any (sameFields ·.fields first.fields) &&
      drafted.any (sameFields ·.fields second.fields)
  | _ => false

end Catalog.Stored
