import Catalog.Assembly

/-!
Inserting refs. Both endpoints are resolved against the tables that exist before any identifier is
taken.
-/
namespace Catalog

/-- An endpoint with the table and the fields that it names. -/
structure Resolved where
  declared : Decl.Endpoint
  table : Id .table
  fields : List (Id .field)

/-- The fields of a table with the given names, none of them twice. -/
def resolveFields (s : Schema) (t : Table) (token : Span) (earlier : List (Id .field)) :
    List String → Except Rejection (List (Id .field))
  | [] => .ok []
  | name :: names =>
    match t.findField? name with
    | none =>
      .error { cause := .fieldNotFound (qualifiedName (some s.name) t.name) name, span := token }
    | some f =>
      if f.id ∈ earlier then
        .error { cause := .invalidEndpoints (.repeatedField name), span := token }
      else (resolveFields s t token (f.id :: earlier) names).map (f.id :: ·)

namespace Database

/-- The table that a name refers to. Blame falls on the token given. -/
def resolveTable (db : Database) (schema : Option String) (table : String) (token : Span) :
    Except Rejection (Schema × Table) :=
  match db.locate schema table with
  | .error r => .error (r.blamedOn token)
  | .ok (some found) => .ok found
  | .ok none =>
    let shown := qualifiedName (some (schema.getD db.config.defaultSchemaName)) table
    .error { cause := .tableNotFound shown, span := token }

/-- Blame falls on the token of the endpoint, or of the ref where the endpoint has none. -/
def resolveEndpoint (db : Database) (refToken : Span) (d : Decl.Endpoint) :
    Except Rejection Resolved := do
  let token := d.token.orElse refToken
  let (s, t) ← db.resolveTable d.schemaName d.tableName token
  let fields ← resolveFields s t token [] d.fieldNames
  pure ⟨d, t.id, fields⟩

/-- The two endpoints of a ref: equally many fields on either side, and not the same ones. -/
def resolveRef (db : Database) (d : Decl.Ref) : Except Rejection (Resolved × Resolved) :=
  match d.endpoints with
  | [first, second] => do
    let first ← db.resolveEndpoint d.token first
    let second ← db.resolveEndpoint d.token second
    if first.fields.length ≠ second.fields.length then
      .error { cause := .invalidEndpoints .unequalLengths, span := d.token }
    else if sameFields first.fields second.fields then
      .error { cause := .invalidEndpoints .sameFields, span := d.token }
    else pure (first, second)
  | ds => .error { cause := .invalidEndpoints (.count ds.length), span := d.token }

end Database

/-- A field that an endpoint covers records the endpoint. -/
def Field.linkEndpoint (f : Field) (e : Endpoint) : Field :=
  if e.covers f.id then { f with endpoints := f.endpoints ++ [e.id] } else f

/-- Makes a ref part of its schema; the fields of its endpoints record them. -/
def Database.addRef (db : Database) (schema : Id .schema) (r : Ref) : Database :=
  (db.mapFields fun f => (f.linkEndpoint r.first).linkEndpoint r.second).updateSchema schema
    fun s => { s with refs := s.refs ++ [r] }

def draftEndpoint (e : Resolved) : Drafting Endpoint := do
  pure { toEndpointInfo := e.declared.toEndpointInfo, id := ← issue .endpoint,
         token := e.declared.token, table := e.table, fields := e.fields }

def draftRef (d : Decl.Ref) (first second : Resolved) : Drafting Ref := do
  let id ← issue .ref
  let first ← draftEndpoint first
  let second ← draftEndpoint second
  pure { toRefInfo := d.toRefInfo, id, token := d.token, first, second }

namespace Assembly

/-- No two refs of one schema may connect the same endpoints. -/
def checkRef (db : Database) (schema : Id .schema) (r : Ref) : Drafting Unit :=
  match db.schema? schema with
  | none => pure ()
  | some s =>
    if s.refs.any fun other => r.connectsSame other then
      .reject { cause := .duplicateRef, span := r.token }
    else pure ()

def pushRef (schema : Id .schema) (d : Decl.Ref) : Construction Ref :=
  insert
    (fun db => do
      let (first, second) ← Attempt.ofExcept (db.resolveRef d)
      let r ← draftRef d first second
      checkRef db schema r
      pure r)
    (fun db r => db.addRef schema r)

end Assembly

end Catalog
