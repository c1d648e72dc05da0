import Catalog.Assembly.Ref

/-!
Inserting table groups. Members are resolved before an identifier is taken; a table that is listed
twice counts once, and no table may be in two groups.
-/
namespace Catalog

namespace Database

/-- The tables that the members name, in order of first mention. Blame falls on the token of the
member, or of the group where the member has none. -/
def resolveMembers (db : Database) (groupToken : Span) (found : List Table) :
    List Decl.Member → Except Rejection (List Table)
  | [] => .ok found
  | m :: ms => do
    let (_, t) ← db.resolveTable m.schemaName m.name (m.token.orElse groupToken)
    db.resolveMembers groupToken (if found.any (·.id = t.id) then found else found ++ [t]) ms

/-- The first of some tables that is in a group, with that group. -/
def firstGrouped? (tables : List Table) : Option (Id .table × Id .tableGroup) :=
  tables.findSome? fun t => t.group.map fun g => (t.id, g)

/-- Makes a group part of its schema; its tables record the group. -/
def addTableGroup (db : Database) (schema : Id .schema) (g : TableGroup) : Database :=
  (db.mapTables fun t => if t.id ∈ g.tables then { t with group := some g.id } else t).updateSchema
    schema fun s => { s with tableGroups := s.tableGroups ++ [g] }

end Database

namespace Assembly

def checkUngrouped (db : Database) (tables : List Table) (token : Span) : Drafting Unit :=
  match Database.firstGrouped? tables with
  | none => pure ()
  | some (table, group) =>
    let cause := Cause.tableAlreadyGrouped ((db.qualifiedTableName? table).getD "")
      ((db.tableGroup? group).elim "" (·.name))
    .reject { cause, span := token }

def pushTableGroup (schema : Id .schema) (d : Decl.TableGroup) : Construction TableGroup :=
  insert
    (fun db => do
      let tables ← Attempt.ofExcept (db.resolveMembers d.token [] d.tables)
      let id ← issue .tableGroup
      checkName db schema .tableGroup d.name d.token
      checkUngrouped db tables d.token
      pure { toTableGroupInfo := d.toTableGroupInfo, id, token := d.token,
             tables := tables.map (·.id) })
    (fun db g => db.addTableGroup schema g)

end Assembly

end Catalog
