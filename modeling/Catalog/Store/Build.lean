import Catalog.Operation
import Catalog.Store.Insert

/-!
Building a store from a bundle, operations that extend it after that, and the stores that they lead
to.
-/
namespace Catalog.Store

/-- Rejects a name or an alias that another schema has taken. -/
def checkSchema (s : Stored.Schema) : Access Unit := do
  match ← find? (← get).schemas (·.collides s.toSchemaInfo) with
  | none => pure ()
  | some _ => throw { cause := .duplicateSchema s.name, span := s.token }

def addSchema (s : Stored.Schema) : Access (Id .schema) := do
  insert s.id s
  modify fun st => { st with schemas := st.schemas ++ [s.id] }
  pure s.id

def pushSchema (s : Stored.Schema) : Access (Id .schema) := do
  checkSchema s
  addSchema s

def newSchema (info : SchemaInfo) (token : Span) : Access (Id .schema) := do
  pushSchema (← drafted (Stored.draftSchema (← get).id info token))

def markDefault : Access Unit :=
  modify fun st => { st with hasDefaultSchema := true }

/-- The schema with some name or alias, created where there is none. Arriving at the default schema
marks the database, even where the schema cannot be created. -/
def getOrCreateSchema (name : String) : Access (Id .schema) := do
  let config := (← get).config
  match ← findSchema name with
  | some i =>
    if (← row i).name = config.defaultSchemaName then markDefault
    pure i
  | none =>
    if name = config.defaultSchemaName then
      markDefault
      newSchema { name, note := some config.defaultSchemaNote } {}
    else newSchema { name } {}

/-- The schema that a record outside of schema declarations belongs to. -/
def route (schemaName : Option String) : Access (Id .schema) := do
  getOrCreateSchema (schemaName.getD (← get).config.defaultSchemaName)

/-- Inserts a record into the schema that it belongs to. -/
def routed {δ ε : Type} (schemaName : δ → Option String)
    (push : Id .schema → δ → Access ε) (d : δ) : Access ε := do
  let schema ← route (schemaName d)
  push schema d

def newTag (schema : Id .schema) (d : Decl.Tag) : Access (Id .tag) := do
  pushTag schema (← drafted (Stored.draftTag schema d))

/-- Carries out work for the items in order. -/
def forEach {δ ε : Type} (f : δ → Access ε) (ds : List δ) : Access Unit :=
  ds.forM fun d => do
    let _ ← f d
    pure ()

/-- Inserts the records nested in a schema declaration. -/
def process (schema : Id .schema) (d : Decl.Schema) : Access Unit := do
  forEach (pushTable schema) d.tables
  forEach (newTag schema) d.tags
  forEach (pushEnum schema) d.enums
  forEach (pushRef schema) d.refs
  forEach (pushTableGroup schema) d.tableGroups

/-- Marks the store if the schema is the default one and holds anything. -/
def markIfDefault (schema : Id .schema) : Access Unit := do
  let s ← row schema
  if s.name = (← get).config.defaultSchemaName ∧ s.isEmpty = false then markDefault

def declareSchema (d : Decl.Schema) : Access Unit := do
  let i ← newSchema d.toSchemaInfo d.token
  process i d
  markIfDefault i

/-- Links a table and a tag that it mentions, which is created where the schema does not have it. -/
def bindMention (schema : Id .schema) (table : Id .table) (m : Decl.Mention) : Access Unit := do
  let tag ← match ← findTag (← row schema) m.name with
    | some i => pure i
    | none => pushTag schema (← drafted (Stored.draftMention schema m))
  update table fun t => { t with tags := pushNew t.tags tag }
  update tag fun t => { t with tables := pushNew t.tables table }

/-- Links all tables and the tags that they mention. -/
def bindTags : Access Unit := do
  (← get).schemas.forM fun schema => do
    (← row schema).tables.forM fun table => do
      (← row table).mentions.forM (bindMention schema table)

/-- Links all enums, in the order of their identifiers. -/
def bindEnums : Access Unit := do
  forEach bindEnum ((← get).arena .enum).ids

/-- Links all enums if the configuration leaves that to the end. -/
def bindRemaining : Access Unit := do
  match (← get).config.enumBinding with
  | .onInsert => pure ()
  | .afterConstruction => bindEnums

def addBundle (b : Decl.Bundle) : Access Unit := do
  forEach declareSchema b.schemas
  forEach (routed (·.schemaName) pushTable) b.tables
  forEach (routed (·.schemaName) newTag) b.tags
  bindTags
  forEach (routed (·.schemaName) pushRef) b.refs
  forEach (routed (·.schemaName) pushEnum) b.enums
  forEach (routed (·.schemaName) pushTableGroup) b.tableGroups
  bindRemaining

/-- Builds a store; the first violation ends the work. -/
def build (b : Decl.Bundle) (config : Config) : Option (Except Rejection Store) :=
  match (issue .database).run { base := config.idBase } with
  | (.error r, _) => some (.error r)
  | (.ok id, ids) =>
    ((addBundle b).run.run { toDatabaseInfo := b.project, id, config, ids }).map fun
      | (.ok (), st) => .ok st
      | (.error r, _) => .error r

/-- Performs an operation. -/
def perform : Operation → Access Outcome
  | .getOrCreateSchema name => .entity .schema <$> getOrCreateSchema name
  | .pushSchema info token => .entity .schema <$> newSchema info token
  | .process schema d => (fun _ => .done) <$> process schema d
  | .pushTable schema d => .entity .table <$> pushTable schema d
  | .pushEnum schema d => .entity .enum <$> pushEnum schema d
  | .pushRef schema d => .entity .ref <$> pushRef schema d
  | .pushTableGroup schema d => .entity .tableGroup <$> pushTableGroup schema d
  | .pushTag schema d => .entity .tag <$> newTag schema d
  | .bindEnum enum => .fields <$> bindEnum enum
  | .bindEnums => (fun _ => .done) <$> bindEnums

/-- The schema or the enum that an operation is to be performed on is stored. -/
def Admits (st : Store) : Operation → Prop
  | .getOrCreateSchema _ | .pushSchema .. | .bindEnums => True
  | .process s _ | .pushTable s _ | .pushEnum s _ | .pushRef s _ | .pushTableGroup s _
  | .pushTag s _ => ((st.arena .schema).get? s).isSome
  | .bindEnum e => ((st.arena .enum).get? e).isSome

/-- The stores that a build and any operations after it can lead to, rejected ones among them. -/
inductive Reachable : Store → Prop
  | build {b : Decl.Bundle} {config : Config} {st : Store} :
      Store.build b config = some (.ok st) → Reachable st
  | step {st st' : Store} {op : Operation} {out : Except Rejection Outcome} :
      Reachable st → st.Admits op → (perform op).run.run st = some (out, st') → Reachable st'

end Catalog.Store
