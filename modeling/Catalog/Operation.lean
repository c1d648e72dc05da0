import Catalog.Assembly.Build

/-!
Operations that extend an assembly after it has been built, and the states that they lead to. An
operation that is rejected leaves a state to go on from.
-/
namespace Catalog

inductive Operation where
  | getOrCreateSchema (name : String)
  | pushSchema (info : SchemaInfo) (token : Span)
  /-- Inserts the records nested in a declaration into a schema that exists. -/
  | process (schema : Id .schema) (d : Decl.Schema)
  | pushTable (schema : Id .schema) (d : Decl.Table)
  | pushEnum (schema : Id .schema) (d : Decl.Enum)
  | pushRef (schema : Id .schema) (d : Decl.Ref)
  | pushTableGroup (schema : Id .schema) (d : Decl.TableGroup)
  | pushTag (schema : Id .schema) (d : Decl.Tag)
  | bindEnum (enum : Id .enum)
  | bindEnums
  deriving DecidableEq, Repr

/-- What an operation answers. -/
inductive Outcome where
  | done
  /-- The entity that is there now. -/
  | entity (kind : Kind) (id : Id kind)
  /-- How many fields an enum is the declared type of. -/
  | fields (count : Nat)
  deriving DecidableEq, Repr

namespace Assembly

/-- Links an enum, and counts the fields that it is the declared type of. -/
def bindEnum (enum : Id .enum) : Construction Nat := do
  let db := (← Attempt.state).database
  Attempt.modify fun s => { s with database := s.database.bindEnum enum }
  pure (db.matchingFields enum).length

def bindEnums : Construction Unit :=
  .modify fun s => { s with database := s.database.bindEnums }

end Assembly

namespace Operation

def perform : Operation → Construction Outcome
  | getOrCreateSchema name => do pure (.entity .schema (← Assembly.getOrCreateSchema name))
  | pushSchema info token => do pure (.entity .schema (← Assembly.pushSchema info token).id)
  | process schema d => do
    Assembly.process schema d
    pure .done
  | pushTable schema d => do pure (.entity .table (← Assembly.pushTable schema d).id)
  | pushEnum schema d => do pure (.entity .enum (← Assembly.pushEnum schema d).id)
  | pushRef schema d => do pure (.entity .ref (← Assembly.pushRef schema d).id)
  | pushTableGroup schema d => do
    pure (.entity .tableGroup (← Assembly.pushTableGroup schema d).id)
  | pushTag schema d => do pure (.entity .tag (← Assembly.pushTag schema d).id)
  | bindEnum enum => do pure (.fields (← Assembly.bindEnum enum))
  | bindEnums => do
    Assembly.bindEnums
    pure .done

/-- The schema that an operation is to be performed on exists, as does the enum. -/
def AppliesTo (db : Database) : Operation → Prop
  | getOrCreateSchema _ | pushSchema .. | bindEnums => True
  | process s _ | pushTable s _ | pushEnum s _ | pushRef s _ | pushTableGroup s _ | pushTag s _ =>
    ∃ schema ∈ db.schemas, schema.id = s
  | bindEnum e => ∃ enum ∈ db.enums, enum.id = e

end Operation

namespace Assembly

/-- The state after an operation, be it rejected or not. -/
def after (s : Assembly) (op : Operation) : Assembly :=
  (op.perform.run s).2

/-- The states that a build and any operations after it can lead to. -/
inductive Reachable : Assembly → Prop
  | build {b : Decl.Bundle} {config : Config} {s : Assembly} :
      Assembly.build b config = .ok s → Reachable s
  | step {s : Assembly} {op : Operation} :
      Reachable s → op.AppliesTo s.database → Reachable (s.after op)

end Assembly

end Catalog
