import Catalog.Store.Draft
import Catalog.Store.Lookup

/-!
Inserting entities: what is drafted is checked against the schema that it is for, filed record by
record, and listed by the schema. Entities that it is linked to are told in place.
-/
namespace Catalog.Store

variable {k : Kind}

/-- Rejects a name that one of the siblings has taken. -/
def checkName (schema : Id .schema) (sort : ChildSort) (siblings : Stored.Schema → List (Id k))
    (taken : Stored k → Bool) (name : String) (token : Span) : Access Unit := do
  let s ← row schema
  match ← find? (siblings s) taken with
  | none => pure ()
  | some _ => throw { cause := .duplicateChild sort (← shownSchema s) name, span := token }

def addTable (schema : Id .schema) (draft : Stored.TableDraft) : Access (Id .table) := do
  draft.fields.forM fun f => insert f.id f
  draft.indexes.forM fun x => insert x.id x
  draft.indexColumns.forM fun c => insert c.id c
  insert draft.table.id draft.table
  update schema fun s => { s with tables := s.tables ++ [draft.table.id] }
  pure draft.table.id

def pushTable (schema : Id .schema) (d : Decl.Table) : Access (Id .table) := do
  let draft ← drafted (Stored.draftTable schema d)
  checkName schema .table (·.tables) (·.name = draft.table.name) draft.table.name draft.table.token
  addTable schema draft

def addTag (schema : Id .schema) (t : Stored.Tag) : Access (Id .tag) := do
  insert t.id t
  update schema fun s => { s with tags := s.tags ++ [t.id] }
  pure t.id

def pushTag (schema : Id .schema) (t : Stored.Tag) : Access (Id .tag) := do
  checkName schema .tag (·.tags) (·.name = t.name) t.name t.token
  addTag schema t

/-- Links an enum and a field. -/
def linkField (enum : Id .enum) (field : Id .field) : Access Unit := do
  update field fun f => { f with enumId := some enum }
  update enum fun e => { e with fields := pushNew e.fields field }

/-- Links an enum and all fields, in any schema, that it is the declared type of, as far as they
exist, and counts them. -/
def bindEnum (enum : Id .enum) : Access Nat := do
  let e ← row enum
  let s ← row e.schema
  let st ← get
  let schemas ← rows st.schemas
  let tables ← rows (schemas.flatMap (·.tables))
  let fields ← rows (tables.flatMap (·.fields))
  let matching := fields.filter (·.isOfEnum st.config.defaultSchemaName s.name e.name)
  matching.forM fun f : Stored.Field => linkField enum f.id
  pure matching.length

/-- Files an enum, and links it right away where the configuration says so. -/
def addEnum (schema : Id .schema) (draft : Stored.EnumDraft) : Access (Id .enum) := do
  draft.values.forM fun v => insert v.id v
  insert draft.enum.id draft.enum
  update schema fun s => { s with enums := s.enums ++ [draft.enum.id] }
  match (← get).config.enumBinding with
  | .onInsert =>
    let _ ← bindEnum draft.enum.id
    pure draft.enum.id
  | .afterConstruction => pure draft.enum.id

def pushEnum (schema : Id .schema) (d : Decl.Enum) : Access (Id .enum) := do
  let draft ← drafted (Stored.draftEnum schema d)
  checkName schema .enum (·.enums) (·.name = draft.enum.name) draft.enum.name draft.enum.token
  addEnum schema draft

/-- No two refs of one schema may connect the same endpoints. -/
def checkRef (schema : Id .schema) (endpoints : List Stored.Endpoint) (token : Span) :
    Access Unit := do
  let s ← row schema
  let same ← s.refs.findM? fun i : Id .ref => do
    pure (Stored.sameEndpoints endpoints (← rows (← row i).endpoints))
  match same with
  | none => pure ()
  | some _ => throw { cause := .duplicateRef, span := token }

/-- Files an endpoint; the fields that it covers record it. -/
def insertEndpoint (e : Stored.Endpoint) : Access Unit := do
  e.fields.forM fun i => update i fun f => { f with endpoints := f.endpoints ++ [e.id] }
  insert e.id e

def addRef (schema : Id .schema) (draft : Stored.RefDraft) : Access (Id .ref) := do
  draft.endpoints.forM insertEndpoint
  insert draft.ref.id draft.ref
  update schema fun s => { s with refs := s.refs ++ [draft.ref.id] }
  pure draft.ref.id

def pushRef (schema : Id .schema) (d : Decl.Ref) : Access (Id .ref) := do
  let (first, second) ← resolveRef d
  let draft ← drafted (Stored.draftRef schema d [first, second])
  checkRef schema draft.endpoints draft.ref.token
  addRef schema draft

/-- No table may be in two groups. -/
def checkUngrouped (tables : List (Id .table)) (token : Span) : Access Unit := do
  let grouped ← tables.findSomeM? fun i : Id .table => do
    pure ((← row i).group.map fun g => (i, g))
  match grouped with
  | none => pure ()
  | some (table, group) =>
    let shown ← qualifiedTableName table
    throw { cause := .tableAlreadyGrouped shown (← row group).name, span := token }

/-- Files a group; its tables record it. -/
def addTableGroup (schema : Id .schema) (g : Stored.TableGroup) : Access (Id .tableGroup) := do
  g.tables.forM fun i => update i fun t => { t with group := some g.id }
  insert g.id g
  update schema fun s => { s with tableGroups := s.tableGroups ++ [g.id] }
  pure g.id

def pushTableGroup (schema : Id .schema) (d : Decl.TableGroup) : Access (Id .tableGroup) := do
  let tables ← resolveMembers d.token [] d.tables
  let g ← drafted (Stored.draftTableGroup schema d tables)
  checkName schema .tableGroup (·.tableGroups) (·.name = g.name) g.name g.token
  checkUngrouped g.tables g.token
  addTableGroup schema g

end Catalog.Store
