import Catalog.Assembly

/-!
Inserting tags, and linking tables and the tags that they mention. A mentioned tag that the schema
of the table does not have yet is created there.
-/
namespace Catalog

namespace Database

def addTag (db : Database) (schema : Id .schema) (t : Tag) : Database :=
  db.updateSchema schema fun s => { s with tags := s.tags ++ [t] }

end Database

namespace Assembly

def pushTag (schema : Id .schema) (d : Decl.Tag) : Construction Tag :=
  insert
    (fun db => do
      let id ← issue .tag
      checkName db schema .tag d.name d.token
      pure { toTagInfo := d.toTagInfo, id, token := d.token })
    (fun db t => db.addTag schema t)

end Assembly

/-- The tags of a schema and, among them, those of one table. -/
structure Tagging where
  tags : List Tag
  bound : List (Id .tag) := []

namespace Tagging

/-- Links a table and a tag in both directions. -/
def link (g : Tagging) (table : Id .table) (tag : Id .tag) : Tagging where
  tags := g.tags.map fun t =>
    if t.id = tag then { t with tables := pushNew t.tables table } else t
  bound := pushNew g.bound tag

/-- Links a table and a tag that it mentions. -/
def mention (g : Tagging) (table : Id .table) (m : Decl.Mention) : Drafting Tagging :=
  match g.tags.find? (·.name = m.name) with
  | some t => pure (g.link table t.id)
  | none => do
    let id ← issue .tag
    let tag : Tag := { name := m.name, id, token := m.token }
    pure ({ g with tags := g.tags ++ [tag] }.link table id)

def mentions (g : Tagging) (table : Id .table) : List Decl.Mention → Drafting Tagging
  | [] => pure g
  | m :: ms => do (← g.mention table m).mentions table ms

end Tagging

/-- Links the tables of a schema, of which `tags` are the tags so far. -/
def bindTables (tags : List Tag) : List Table → Drafting (List Table × List Tag)
  | [] => pure ([], tags)
  | t :: ts => do
    let g ← Tagging.mentions { tags, bound := t.tags } t.id t.mentions
    let (ts, tags) ← bindTables g.tags ts
    pure ({ t with tags := g.bound } :: ts, tags)

def Schema.bindTags (s : Schema) : Drafting Schema := do
  let (tables, tags) ← bindTables s.tags s.tables
  pure { s with tables, tags }

namespace Assembly

/-- Links all tables and the tags that they mention. -/
def bindTags : Construction Unit := do
  let _ ← insert (fun db => Attempt.mapEach Schema.bindTags db.schemas)
    (fun db schemas => { db with schemas })
  pure ()

end Assembly

end Catalog
