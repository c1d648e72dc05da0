import Catalog.Database
import Catalog.Proofs.Outline

/-!
What a database remembers of declarations. Every entity keeps what it was declared with, apart from
the schema name that only routed it and the members that a group has resolved, and has a number of
its own among those of its kind.
-/
namespace Catalog

/-! Declarations without what their entities do not keep. -/

namespace Decl

def Table.bare (d : Table) : Table :=
  { d with schemaName := none }

def Tag.bare (d : Tag) : Tag :=
  { d with schemaName := none }

def Enum.bare (d : Enum) : Enum :=
  { d with schemaName := none }

end Decl

/-! The declarations that entities come from. -/

def Field.declared (f : Field) : Decl.Field where
  toFieldInfo := f.toFieldInfo
  token := f.token

def IndexColumn.declared (c : IndexColumn) : Decl.IndexColumn where
  toIndexColumnInfo := c.toIndexColumnInfo
  token := c.token

def Index.declared (i : Index) : Decl.Index where
  toIndexInfo := i.toIndexInfo
  columns := i.columns.map (·.declared)
  token := i.token

def Table.declared (t : Table) : Decl.Table where
  toTableInfo := t.toTableInfo
  fields := t.fields.map (·.declared)
  indexes := t.indexes.map (·.declared)
  tags := t.mentions
  token := t.token

def EnumValue.declared (v : EnumValue) : Decl.EnumValue where
  toEnumValueInfo := v.toEnumValueInfo
  token := v.token

def Enum.declared (e : Enum) : Decl.Enum where
  toEnumInfo := e.toEnumInfo
  values := e.values.map (·.declared)
  token := e.token

def Tag.declared (t : Tag) : Decl.Tag where
  toTagInfo := t.toTagInfo
  token := t.token

/-! The numbers that entities have, kind by kind. -/

/-- One number of some kind. -/
def Id.number {k : Kind} (i : Id k) (k' : Kind) : List Nat :=
  if k' = k then [i.toNat] else []

def Index.numbers (i : Index) (k : Kind) : List Nat :=
  i.id.number k ++ i.columns.flatMap (·.id.number k)

def Table.numbers (t : Table) (k : Kind) : List Nat :=
  t.id.number k ++ t.fields.flatMap (·.id.number k) ++ t.indexes.flatMap (·.numbers k)

def Enum.numbers (e : Enum) (k : Kind) : List Nat :=
  e.id.number k ++ e.values.flatMap (·.id.number k)

def Ref.numbers (r : Ref) (k : Kind) : List Nat :=
  r.id.number k ++ r.endpoints.flatMap (·.id.number k)

def Schema.numbers (s : Schema) (k : Kind) : List Nat :=
  s.id.number k ++ s.tables.flatMap (·.numbers k) ++ s.tags.flatMap (·.id.number k)
    ++ s.enums.flatMap (·.numbers k) ++ s.refs.flatMap (·.numbers k)
    ++ s.tableGroups.flatMap (·.id.number k)

def Database.numbers (db : Database) (k : Kind) : List Nat :=
  db.id.number k ++ db.schemas.flatMap (·.numbers k)

end Catalog
