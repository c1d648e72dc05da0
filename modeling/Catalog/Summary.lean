import Catalog.Database
import Catalog.Text.Grid

/-!
The summary of a database: how much each schema holds.
-/
namespace Catalog

structure SummaryRow where
  schema : String
  aliasName : Option String
  tables : Nat
  fields : Nat
  enums : Nat
  refs : Nat
  tags : Nat
  tableGroups : Nat
  deriving DecidableEq, Repr

def Schema.summary (s : Schema) : SummaryRow where
  schema := s.name
  aliasName := s.aliasName
  tables := s.tables.length
  fields := s.fields.length
  enums := s.enums.length
  refs := s.refs.length
  tags := s.tags.length
  tableGroups := s.tableGroups.length

def Database.summary (db : Database) : List SummaryRow :=
  db.schemas.map (·.summary)

namespace SummaryRow

def header : List String :=
  ["Schema", "Alias", "Tables", "Fields", "Enums", "Refs", "Tags", "Groups"]

def cells (r : SummaryRow) : List String :=
  [r.schema, r.aliasName.getD "-"]
    ++ [r.tables, r.fields, r.enums, r.refs, r.tags, r.tableGroups].map toString

def tabulate (rows : List SummaryRow) : String :=
  if rows.isEmpty then "No schemas" else Text.grid header (rows.map cells)

end SummaryRow

end Catalog
