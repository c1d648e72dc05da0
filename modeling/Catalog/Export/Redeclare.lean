import Catalog.Export

/-!
Back from an export tree to declarations. Every schema is declared with all its records nested in
it, so that nothing depends on routing; tokens are empty.
-/
namespace Catalog.Export

def Index.redeclare (i : Index) : Decl.Index where
  toIndexInfo := i.toIndexInfo
  columns := i.columns.map fun c => { toIndexColumnInfo := c }

def Table.redeclare (t : Table) : Decl.Table where
  toTableInfo := t.toTableInfo
  fields := t.fields.map fun f => { toFieldInfo := f }
  indexes := t.indexes.map (·.redeclare)
  tags := t.tags.map fun name => { name }

def Enum.redeclare (e : Enum) : Decl.Enum where
  toEnumInfo := e.toEnumInfo
  values := e.values.map fun v => { toEnumValueInfo := v }

def Ref.redeclare (r : Ref) : Decl.Ref where
  toRefInfo := r.toRefInfo
  endpoints := r.endpoints.map fun e => { toEndpointInfo := e }

/-- Members are declared with the schema that they were found in. -/
def TableGroup.redeclare (g : TableGroup) : Decl.TableGroup where
  toTableGroupInfo := g.toTableGroupInfo
  tables := g.tables.map fun m => { name := m.tableName, schemaName := some m.schemaName }

def Schema.redeclare (s : Schema) : Decl.Schema where
  toSchemaInfo := s.toSchemaInfo
  tables := s.tables.map (·.redeclare)
  refs := s.refs.map (·.redeclare)
  enums := s.enums.map (·.redeclare)
  tags := s.tags.map fun t => { toTagInfo := t }
  tableGroups := s.tableGroups.map (·.redeclare)

def Tree.redeclare (t : Tree) : Decl.Bundle where
  schemas := t.schemas.map (·.redeclare)
  project := t.toDatabaseInfo

end Catalog.Export
