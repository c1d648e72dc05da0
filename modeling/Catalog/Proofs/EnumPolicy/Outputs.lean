import Catalog.Export
import Catalog.Flat
import Catalog.Proofs.EnumPolicy.Unbound

/-!
What is made of a database without enum links: the same export, and the flat model without them.
-/
namespace Catalog

variable (db : Database)

/-! Exports. -/

namespace Database

theorem member?_unbound (id : Id .table) : db.unbound.member? id = db.member? id := by
  unfold member?
  rw [schemaOfTable?_unbound, table?_unbound]
  cases db.schemaOfTable? id <;> cases db.table? id <;> rfl

theorem toExportTable_unbound (t : Table) :
    db.unbound.toExportTable t.unbound = db.toExportTable t := by
  simp only [toExportTable, tag?, tags_unbound, Table.unbound, List.map_map]
  rfl

theorem toExportSchema_unbound (s : Schema) :
    db.unbound.toExportSchema s.unbound = db.toExportSchema s := by
  have hgroup : db.unbound.toExportTableGroup = db.toExportTableGroup := by
    funext g
    rw [toExportTableGroup, toExportTableGroup, funext db.member?_unbound]
  simp only [toExportSchema, Schema.unbound, List.map_map, Function.comp_def,
    toExportTable_unbound, hgroup]
  rfl

theorem toExport_unbound : db.unbound.toExport = db.toExport := by
  have hschemas : db.unbound.schemas.map db.unbound.toExportSchema
      = db.schemas.map db.toExportSchema := by
    simp only [unbound, List.map_map]
    exact List.map_congr_left fun s _ => db.toExportSchema_unbound s
  rw [toExport, hschemas]
  rfl

end Database

/-! Flat models. -/

namespace Bucket

variable {k : Kind} {α β : Type} (f : α → β)

theorem insertEntry_map (id : Id k) (a : α) (es : List (Id k × α)) :
    insertEntry id (f a) (es.map fun e => (e.1, f e.2))
      = (insertEntry id a es).map fun e => (e.1, f e.2) := by
  induction es with
  | nil => rfl
  | cons e es ih =>
    rw [List.map_cons, insertEntry, insertEntry, ih]
    split
    · rfl
    · split <;> rfl

/-- The same identifiers, with what is made of the records under them. -/
def map (b : Bucket k α) : Bucket k β where
  entries := b.entries.map fun e => (e.1, f e.2)
  ascending := by
    rw [Ascending, List.pairwise_map]
    exact b.ascending

theorem map_insert (b : Bucket k α) (id : Id k) (a : α) :
    (b.insert id a).map f = (b.map f).insert id (f a) := by
  simp only [map, insert, insertEntry_map]

theorem map_ofList (es : List (Id k × α)) :
    (ofList es).map f = ofList (es.map fun e => (e.1, f e.2)) := by
  have hfold : ∀ (es : List (Id k × α)) (b : Bucket k α),
      (es.foldl (fun b e => b.insert e.1 e.2) b).map f
        = (es.map fun e => (e.1, f e.2)).foldl (fun b e => b.insert e.1 e.2) (b.map f) := by
    intro es
    induction es with
    | nil => exact fun _ => rfl
    | cons e es ih =>
      intro b
      rw [List.foldl_cons, List.map_cons, List.foldl_cons, ih, map_insert]
  exact hfold es {}

theorem get?_map (b : Bucket k α) (id : Id k) : (b.map f).get? id = (b.get? id).map f := by
  rw [get?, get?, map, List.find?_map, Option.map_map, Option.map_map]
  rfl

theorem get?_of_map_eq {f : α → β} {b b' : Bucket k α} (h : b.map f = b'.map f) {id : Id k} {a : α}
    (ha : b.get? id = some a) : ∃ a', b'.get? id = some a' ∧ f a' = f a := by
  apply Option.map_eq_some_iff.mp
  rw [← get?_map, ← h, get?_map, ha, Option.map_some]

end Bucket

namespace Flat

def Field.unbound (f : Field) : Field :=
  { f with enumId := none }

def Enum.unbound (e : Enum) : Enum :=
  { e with fieldIds := [] }

/-- A flat model without the enums of fields and the fields of enums. -/
def Model.unbound (m : Model) : Model :=
  { m with enums := m.enums.map (·.unbound), fields := m.fields.map (·.unbound) }

end Flat

theorem Schema.flat_unbound (owner : Id .database) (s : Schema) :
    s.unbound.flat owner = s.flat owner := by
  simp only [flat, unbound, List.map_map]
  rfl

theorem Table.flat_unbound (owner : Id .schema) (t : Table) :
    t.unbound.flat owner = t.flat owner := by
  simp only [flat, unbound, List.map_map]
  rfl

namespace Database

theorem flat_unbound : db.unbound.flat = db.flat := by
  simp only [flat, unbound, List.map_map]
  rfl

theorem normalize_unbound : db.unbound.normalize = db.normalize.unbound := by
  simp only [normalize, Flat.Model.unbound, Bucket.map_ofList, flat_unbound, tables_unbound,
    refs_unbound, enums_unbound, indexes_unbound]
  simp only [unbound, List.map_map, List.flatMap_map, List.map_flatMap, Function.comp_def,
    Schema.flat_unbound]
  simp only [Schema.unbound, List.map_map, Function.comp_def, Table.flat_unbound]
  simp only [Table.unbound, List.map_map]
  rfl

end Database

end Catalog
