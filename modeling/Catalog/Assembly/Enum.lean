import Catalog.Assembly

/-!
Inserting enums with their values. Where the configuration says so, an enum is linked to its fields
as soon as it is there.
-/
namespace Catalog

/-- Values with names that differ from one another and from those of earlier values. -/
def draftValues (enum : String) (earlier : List String) :
    List Decl.EnumValue → Drafting (List EnumValue)
  | [] => pure []
  | d :: ds => do
    let id ← issue .enumValue
    if d.name ∈ earlier then
      .reject { cause := .duplicateEnumValue enum d.name, span := d.token }
    else
      let values ← draftValues enum (d.name :: earlier) ds
      pure ({ toEnumValueInfo := d.toEnumValueInfo, id, token := d.token } :: values)

def draftEnum (d : Decl.Enum) : Drafting Enum := do
  let id ← issue .enum
  let values ← draftValues d.name [] d.values
  pure { toEnumInfo := d.toEnumInfo, id, token := d.token, values }

namespace Database

def addEnum (db : Database) (schema : Id .schema) (e : Enum) : Database :=
  let db := db.updateSchema schema fun s => { s with enums := s.enums ++ [e] }
  match db.config.enumBinding with
  | .onInsert => db.bindEnum e.id
  | .afterConstruction => db

end Database

namespace Assembly

def pushEnum (schema : Id .schema) (d : Decl.Enum) : Construction Enum :=
  insert
    (fun db => do
      let e ← draftEnum d
      checkName db schema .enum e.name e.token
      pure e)
    (fun db e => db.addEnum schema e)

end Assembly

end Catalog
