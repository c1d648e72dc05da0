import Catalog.Assembly.Ref
import Catalog.Store

/-!
Finding entities of a store by name. Lists of identifiers are followed one identifier after another,
up to the first record that is asked for.
-/
namespace Catalog.Store

variable {k : Kind}

/-- The first of some identifiers whose record passes a test. -/
def find? (is : List (Id k)) (p : Stored k → Bool) : Access (Option (Id k)) :=
  is.findM? fun i => do pure (p (← row i))

/-- The records under some identifiers. -/
def rows (is : List (Id k)) : Access (List (Stored k)) :=
  is.mapM row

def findSchema (name : String) : Access (Option (Id .schema)) := do
  find? (← get).schemas (·.isNamed name)

/-- A table of the named schema, or of the default schema where none is named. An unknown schema is
a violation, an unknown table is not. -/
def findTable (schema : Option String) (table : String) : Access (Option (Id .table)) := do
  let name := schema.getD (← get).config.defaultSchemaName
  match ← findSchema name with
  | none => throw { cause := .schemaNotFound name }
  | some i => find? (← row i).tables (·.isNamed table)

def findTag (s : Stored.Schema) (name : String) : Access (Option (Id .tag)) :=
  find? s.tags (·.name = name)

def findField (t : Stored.Table) (name : String) : Access (Option Stored.Field) := do
  match ← find? t.fields (·.name = name) with
  | none => pure none
  | some i => pure (some (← row i))

/-- A table as diagnostics show it, under the name of its schema. -/
def qualifiedTableName (i : Id .table) : Access String := do
  let t ← row i
  pure (qualifiedName (some (← row t.schema).name) t.name)

/-- The schema name that diagnostics put before the name of a child. The default schema goes
without until a record has been placed in it. -/
def shownSchema (s : Stored.Schema) : Access (Option String) := do
  let st ← get
  pure (if s.name ≠ st.config.defaultSchemaName ∨ st.hasDefaultSchema then some s.name else none)

/-- The table that a name refers to. Blame falls on the token given. -/
def resolveTable (schema : Option String) (table : String) (token : Span) :
    Access (Id .table) := do
  match ← (findTable schema table).adapt (·.blamedOn token) with
  | some i => pure i
  | none =>
    let shown := qualifiedName (some (schema.getD (← get).config.defaultSchemaName)) table
    throw { cause := .tableNotFound shown, span := token }

/-- The fields of a table with the given names, none of them twice. -/
def resolveFields (i : Id .table) (t : Stored.Table) (token : Span) (earlier : List (Id .field)) :
    List String → Access (List (Id .field))
  | [] => pure []
  | name :: names => do
    match ← findField t name with
    | none => throw { cause := .fieldNotFound (← qualifiedTableName i) name, span := token }
    | some f =>
      if f.id ∈ earlier then
        throw { cause := .invalidEndpoints (.repeatedField name), span := token }
      else
        let fields ← resolveFields i t token (f.id :: earlier) names
        pure (f.id :: fields)

/-- Blame falls on the token of the endpoint, or of the ref where the endpoint has none. -/
def resolveEndpoint (refToken : Span) (d : Decl.Endpoint) : Access Resolved := do
  let token := d.token.orElse refToken
  let i ← resolveTable d.schemaName d.tableName token
  let fields ← resolveFields i (← row i) token [] d.fieldNames
  pure ⟨d, i, fields⟩

/-- The two endpoints of a ref: equally many fields on either side, and not the same ones. -/
def resolveRef (d : Decl.Ref) : Access (Resolved × Resolved) :=
  match d.endpoints with
  | [first, second] => do
    let first ← resolveEndpoint d.token first
    let second ← resolveEndpoint d.token second
    if first.fields.length ≠ second.fields.length then
      throw { cause := .invalidEndpoints .unequalLengths, span := d.token }
    else if sameFields first.fields second.fields then
      throw { cause := .invalidEndpoints .sameFields, span := d.token }
    else pure (first, second)
  | ds => throw { cause := .invalidEndpoints (.count ds.length), span := d.token }

/-- The tables that the members name, in order of first mention. Blame falls on the token of the
member, or of the group where the member has none. -/
def resolveMembers (groupToken : Span) (found : List (Id .table)) :
    List Decl.Member → Access (List (Id .table))
  | [] => pure found
  | m :: ms => do
    let i ← resolveTable m.schemaName m.name (m.token.orElse groupToken)
    resolveMembers groupToken (pushNew found i) ms

end Catalog.Store
