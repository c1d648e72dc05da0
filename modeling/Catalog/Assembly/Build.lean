import Catalog.Assembly.Schema

/-!
Building a database from a bundle. The order of the phases is fixed, since later ones look up what
earlier ones have created: declared schemas with the records nested in them, then the other tables,
tags, refs, enums and table groups. Each record goes to the schema that it names or else to the
default one; schemas are created on first mention.
-/
namespace Catalog

namespace Assembly

/-- Inserts a record into the schema that it belongs to. -/
def routed {δ ε : Type} (schemaName : δ → Option String)
    (push : Id .schema → δ → Construction ε) (d : δ) : Construction ε := do
  let schema ← route (schemaName d)
  push schema d

/-- Links all enums if the configuration leaves that to the end. -/
def bindRemaining : Construction Unit :=
  .modify fun s =>
    match s.database.config.enumBinding with
    | .onInsert => s
    | .afterConstruction => { s with database := s.database.bindEnums }

def addBundle (b : Decl.Bundle) : Construction Unit := do
  Attempt.forEach declareSchema b.schemas
  Attempt.forEach (routed (·.schemaName) pushTable) b.tables
  Attempt.forEach (routed (·.schemaName) pushTag) b.tags
  bindTags
  Attempt.forEach (routed (·.schemaName) pushRef) b.refs
  Attempt.forEach (routed (·.schemaName) pushEnum) b.enums
  Attempt.forEach (routed (·.schemaName) pushTableGroup) b.tableGroups
  bindRemaining

/-- Builds a database; the first violation ends the work. -/
def build (b : Decl.Bundle) (config : Config) : Except Rejection Assembly :=
  match (addBundle b).run (start config b.project) with
  | (.ok (), s) => .ok s
  | (.error r, _) => .error r

end Assembly

/-- The database that a bundle describes. -/
def Database.build (b : Decl.Bundle) (config : Config) : Except Rejection Database :=
  (Assembly.build b config).map (·.database)

end Catalog
