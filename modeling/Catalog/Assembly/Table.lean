import Catalog.Assembly

/-!
Inserting tables with their fields and indexes.
-/
namespace Catalog

/-- Fields with names that differ from one another and from those of earlier fields. -/
def draftFields (table : String) (earlier : List String) :
    List Decl.Field → Drafting (List Field)
  | [] => pure []
  | d :: ds => do
    let id ← issue .field
    if d.name ∈ earlier then
      .reject { cause := .duplicateField table d.name, span := d.token }
    else
      let fields ← draftFields table (d.name :: earlier) ds
      pure ({ toFieldInfo := d.toFieldInfo, id, token := d.token } :: fields)

def draftColumn (d : Decl.IndexColumn) : Drafting IndexColumn := do
  pure { toIndexColumnInfo := d.toIndexColumnInfo, id := ← issue .indexColumn, token := d.token }

def draftIndex (d : Decl.Index) : Drafting Index := do
  let id ← issue .index
  let columns ← Attempt.mapEach draftColumn d.columns
  pure { toIndexInfo := d.toIndexInfo, id, token := d.token, columns }

def draftTable (d : Decl.Table) : Drafting Table := do
  let id ← issue .table
  let fields ← draftFields d.name [] d.fields
  let indexes ← Attempt.mapEach draftIndex d.indexes
  pure { toTableInfo := d.toTableInfo, id, token := d.token, fields, indexes, mentions := d.tags }

namespace Database

def addTable (db : Database) (schema : Id .schema) (t : Table) : Database :=
  db.updateSchema schema fun s => { s with tables := s.tables ++ [t] }

end Database

namespace Assembly

def pushTable (schema : Id .schema) (d : Decl.Table) : Construction Table :=
  insert
    (fun db => do
      let t ← draftTable d
      checkName db schema .table t.name t.token
      pure t)
    (fun db t => db.addTable schema t)

end Assembly

end Catalog
