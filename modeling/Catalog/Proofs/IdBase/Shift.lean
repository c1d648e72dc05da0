import Catalog.Assembly.Build
import Catalog.Proofs.Mirror.Resolve

/-!
Databases with all identifiers shifted by one distance. Identifiers that differ still differ after
the shift, and nothing else about them matters to look-ups and checks.
-/
namespace Catalog

/-- Identifiers are shifted within the 32-bit range, and around its end. -/
def Id.shift {k : Kind} (d : UInt32) (i : Id k) : Id k :=
  ⟨i.val + d⟩

theorem Id.shift_injective {k : Kind} (d : UInt32) :
    Function.Injective (Id.shift d : Id k → Id k) := by
  intro i j h
  have hval : i.val + d = j.val + d := congrArg Id.val h
  rw [UInt32.add_left_inj] at hval
  exact congrArg Id.mk hval

@[simp] theorem Id.shift_inj {k : Kind} {d : UInt32} {i j : Id k} : i.shift d = j.shift d ↔ i = j :=
  (Id.shift_injective d).eq_iff

@[simp] theorem Id.mem_map_shift {k : Kind} {d : UInt32} {i : Id k} {is : List (Id k)} :
    i.shift d ∈ is.map (·.shift d) ↔ i ∈ is :=
  List.mem_map_of_injective (Id.shift_injective d)

section Shift

variable (d : UInt32)

def Field.shift (f : Field) : Field :=
  { f with
    id := f.id.shift d, enumId := f.enumId.map (·.shift d),
    endpoints := f.endpoints.map (·.shift d) }

def IndexColumn.shift (c : IndexColumn) : IndexColumn :=
  { c with id := c.id.shift d }

def Index.shift (i : Index) : Index :=
  { i with id := i.id.shift d, columns := i.columns.map (·.shift d) }

def Table.shift (t : Table) : Table :=
  { t with
    id := t.id.shift d, fields := t.fields.map (·.shift d), indexes := t.indexes.map (·.shift d),
    tags := t.tags.map (·.shift d), group := t.group.map (·.shift d) }

def EnumValue.shift (v : EnumValue) : EnumValue :=
  { v with id := v.id.shift d }

def Enum.shift (e : Enum) : Enum :=
  { e with
    id := e.id.shift d, values := e.values.map (·.shift d), fields := e.fields.map (·.shift d) }

def Endpoint.shift (e : Endpoint) : Endpoint :=
  { e with id := e.id.shift d, table := e.table.shift d, fields := e.fields.map (·.shift d) }

def Ref.shift (r : Ref) : Ref :=
  { r with id := r.id.shift d, first := r.first.shift d, second := r.second.shift d }

def TableGroup.shift (g : TableGroup) : TableGroup :=
  { g with id := g.id.shift d, tables := g.tables.map (·.shift d) }

def Tag.shift (t : Tag) : Tag :=
  { t with id := t.id.shift d, tables := t.tables.map (·.shift d) }

def Schema.shift (s : Schema) : Schema :=
  { s with
    id := s.id.shift d, tables := s.tables.map (·.shift d), enums := s.enums.map (·.shift d),
    refs := s.refs.map (·.shift d), tags := s.tags.map (·.shift d),
    tableGroups := s.tableGroups.map (·.shift d) }

/-- The configuration says where identifiers begin. -/
def Database.shift (db : Database) : Database :=
  { db with
    id := db.id.shift d, config := db.config.withIdBase (db.config.idBase + d),
    schemas := db.schemas.map (·.shift d) }

def Allocator.shift (a : Allocator) : Allocator :=
  { a with base := a.base + d }

def Assembly.shift (a : Assembly) : Assembly where
  database := a.database.shift d
  ids := a.ids.shift d

def Resolved.shift (e : Resolved) : Resolved :=
  { e with table := e.table.shift d, fields := e.fields.map (·.shift d) }

end Shift

variable {d : UInt32}

/-! Look-ups by name. -/

theorem Table.findField?_shift (t : Table) (name : String) :
    (t.shift d).findField? name = (t.findField? name).map (·.shift d) :=
  List.find?_map

theorem Schema.findTable?_shift (s : Schema) (name : String) :
    (s.shift d).findTable? name = (s.findTable? name).map (·.shift d) :=
  List.find?_map

theorem Schema.names_shift (s : Schema) (sort : ChildSort) :
    (s.shift d).names sort = s.names sort := by
  cases sort <;> simp only [names, shift, List.map_map] <;> rfl

theorem resolveFields_shift (s : Schema) (t : Table) (token : Span) (earlier : List (Id .field))
    (names : List String) :
    resolveFields (s.shift d) (t.shift d) token (earlier.map (·.shift d)) names
      = (resolveFields s t token earlier names).map (List.map (·.shift d)) := by
  induction names generalizing earlier with
  | nil => rfl
  | cons name names ih =>
    rw [resolveFields_cons, resolveFields_cons, t.findField?_shift]
    cases t.findField? name with
    | none => rfl
    | some f =>
      change (if f.id.shift d ∈ earlier.map (·.shift d) then _ else
        (resolveFields (s.shift d) (t.shift d) token ((f.id :: earlier).map (·.shift d)) names).map
          (f.id.shift d :: ·)) = _
      rw [ih]
      simp only [Id.mem_map_shift]
      split
      · rfl
      · cases resolveFields s t token (f.id :: earlier) names <;> rfl

namespace Database

variable (db : Database)

theorem any_schemas_shift (p : SchemaInfo → Bool) :
    ((db.shift d).schemas.any fun s => p s.toSchemaInfo)
      = db.schemas.any fun s => p s.toSchemaInfo :=
  List.any_map

theorem findSchema?_shift (name : String) :
    (db.shift d).findSchema? name = (db.findSchema? name).map (·.shift d) :=
  List.find?_map

theorem tables_shift : (db.shift d).tables = db.tables.map (·.shift d) := by
  simp only [tables, shift, List.flatMap_map, List.map_flatMap, Schema.shift]

theorem enums_shift : (db.shift d).enums = db.enums.map (·.shift d) := by
  simp only [enums, shift, List.flatMap_map, List.map_flatMap, Schema.shift]

theorem refs_shift : (db.shift d).refs = db.refs.map (·.shift d) := by
  simp only [refs, shift, List.flatMap_map, List.map_flatMap, Schema.shift]

theorem tags_shift : (db.shift d).tags = db.tags.map (·.shift d) := by
  simp only [tags, shift, List.flatMap_map, List.map_flatMap, Schema.shift]

theorem tableGroups_shift : (db.shift d).tableGroups = db.tableGroups.map (·.shift d) := by
  simp only [tableGroups, shift, List.flatMap_map, List.map_flatMap, Schema.shift]

theorem fields_shift : (db.shift d).fields = db.fields.map (·.shift d) := by
  simp only [fields, tables_shift, List.flatMap_map, List.map_flatMap, Table.shift]

theorem indexes_shift : (db.shift d).indexes = db.indexes.map (·.shift d) := by
  simp only [indexes, tables_shift, List.flatMap_map, List.map_flatMap, Table.shift]

/-! Look-ups by identifier. -/

end Database

/-- What is found by an identifier is found by the shifted one after the shift. -/
theorem find?_id_shift {k : Kind} {α : Type} {f : α → α} {g : α → Id k}
    (h : ∀ a, g (f a) = (g a).shift d) (l : List α) (i : Id k) :
    (l.map f).find? (g · = i.shift d) = (l.find? (g · = i)).map f := by
  rw [List.find?_map]
  simp only [Function.comp_def, h, Id.shift_inj]

theorem any_id_shift {k : Kind} {α : Type} {f : α → α} {g : α → Id k}
    (h : ∀ a, g (f a) = (g a).shift d) (l : List α) (i : Id k) :
    (l.map f).any (g · = i.shift d) = l.any (g · = i) := by
  rw [List.any_map]
  simp only [Function.comp_def, h, Id.shift_inj]

namespace Database

variable (db : Database)

theorem schema?_shift (i : Id .schema) :
    (db.shift d).schema? (i.shift d) = (db.schema? i).map (·.shift d) :=
  find?_id_shift (f := Schema.shift d) (g := Schema.id) (fun _ => rfl) db.schemas i

theorem table?_shift (i : Id .table) :
    (db.shift d).table? (i.shift d) = (db.table? i).map (·.shift d) := by
  rw [table?, tables_shift]
  exact find?_id_shift (f := Table.shift d) (g := Table.id) (fun _ => rfl) db.tables i

theorem enum?_shift (i : Id .enum) :
    (db.shift d).enum? (i.shift d) = (db.enum? i).map (·.shift d) := by
  rw [enum?, enums_shift]
  exact find?_id_shift (f := Enum.shift d) (g := Enum.id) (fun _ => rfl) db.enums i

theorem tag?_shift (i : Id .tag) : (db.shift d).tag? (i.shift d) = (db.tag? i).map (·.shift d) := by
  rw [tag?, tags_shift]
  exact find?_id_shift (f := Tag.shift d) (g := Tag.id) (fun _ => rfl) db.tags i

theorem tableGroup?_shift (i : Id .tableGroup) :
    (db.shift d).tableGroup? (i.shift d) = (db.tableGroup? i).map (·.shift d) := by
  rw [tableGroup?, tableGroups_shift]
  exact find?_id_shift (f := TableGroup.shift d) (g := TableGroup.id) (fun _ => rfl)
    db.tableGroups i

theorem schemaOfTable?_shift (i : Id .table) :
    (db.shift d).schemaOfTable? (i.shift d) = (db.schemaOfTable? i).map (·.shift d) := by
  unfold schemaOfTable? shift
  rw [List.find?_map]
  simp only [Function.comp_def, Schema.shift,
    any_id_shift (f := Table.shift d) (g := Table.id) fun _ => rfl]

theorem schemaOfEnum?_shift (i : Id .enum) :
    (db.shift d).schemaOfEnum? (i.shift d) = (db.schemaOfEnum? i).map (·.shift d) := by
  unfold schemaOfEnum? shift
  rw [List.find?_map]
  simp only [Function.comp_def, Schema.shift,
    any_id_shift (f := Enum.shift d) (g := Enum.id) fun _ => rfl]

theorem qualifiedTableName?_shift (i : Id .table) :
    (db.shift d).qualifiedTableName? (i.shift d) = db.qualifiedTableName? i := by
  unfold qualifiedTableName?
  rw [schemaOfTable?_shift]
  cases db.schemaOfTable? i with
  | none => rfl
  | some s =>
    change ((s.tables.map (·.shift d)).find? (·.id = i.shift d)).bind _ = _
    rw [find?_id_shift (f := Table.shift d) (g := Table.id) fun _ => rfl, Option.bind_map]
    rfl

/-! Resolving endpoints and members. -/

theorem locate_shift (schema : Option String) (table : String) :
    (db.shift d).locate schema table
      = (db.locate schema table).map (Option.map (Prod.map (·.shift d) (·.shift d))) := by
  have hname : (db.shift d).config.defaultSchemaName = db.config.defaultSchemaName := rfl
  unfold locate
  simp only [hname, findSchema?_shift]
  cases db.findSchema? (schema.getD db.config.defaultSchemaName) with
  | none => rfl
  | some s =>
    change Except.ok _ = Except.ok _
    rw [s.findTable?_shift, Option.map_map, Option.map_map]
    rfl

theorem resolveTable_shift (schema : Option String) (table : String) (token : Span) :
    (db.shift d).resolveTable schema table token
      = (db.resolveTable schema table token).map (Prod.map (·.shift d) (·.shift d)) := by
  unfold resolveTable
  rw [locate_shift]
  rcases db.locate schema table with r | _ | ⟨s, t⟩ <;> rfl

theorem resolveEndpoint_shift (token : Span) (e : Decl.Endpoint) :
    (db.shift d).resolveEndpoint token e = (db.resolveEndpoint token e).map (·.shift d) := by
  unfold resolveEndpoint
  simp only [resolveTable_shift]
  rcases db.resolveTable e.schemaName e.tableName (e.token.orElse token) with r | ⟨s, t⟩
  · rfl
  · have hfields := resolveFields_shift (d := d) s t (e.token.orElse token) [] e.fieldNames
    rw [List.map_nil] at hfields
    simp only [Except.map, Prod.map, bind, Except.bind, hfields]
    cases resolveFields s t (e.token.orElse token) [] e.fieldNames <;> rfl

end Database

theorem sameFields_shift (is js : List (Id .field)) :
    sameFields (is.map (·.shift d)) (js.map (·.shift d)) = sameFields is js := by
  simp only [sameFields, List.all_map, Function.comp_def, Id.mem_map_shift]

theorem Ref.connectsSame_shift (r r' : Ref) :
    (r.shift d).connectsSame (r'.shift d) = r.connectsSame r' := by
  have hsides : ∀ r : Ref, (r.shift d).endpoints = r.endpoints.map (·.shift d) := fun _ => rfl
  have hsame : ∀ e e' : Endpoint, (e.shift d).sameFields (e'.shift d) = e.sameFields e' :=
    fun e e' => Catalog.sameFields_shift e.fields e'.fields
  simp only [connectsSame, hsides, List.all_map, List.any_map, Function.comp_def, hsame]

namespace Database

variable (db : Database)

theorem resolveRef_shift (r : Decl.Ref) :
    (db.shift d).resolveRef r = (db.resolveRef r).map (Prod.map (·.shift d) (·.shift d)) := by
  unfold resolveRef
  split
  · rename_i first second _
    rw [resolveEndpoint_shift, resolveEndpoint_shift]
    rcases db.resolveEndpoint r.token first with _ | e
    · rfl
    · rcases db.resolveEndpoint r.token second with _ | e'
      · rfl
      · simp only [Except.map, bind, Except.bind, Resolved.shift, List.length_map, sameFields_shift]
        split
        · rfl
        · split <;> rfl
  · rfl

theorem resolveMembers_shift (token : Span) (found : List Table) (ms : List Decl.Member) :
    (db.shift d).resolveMembers token (found.map (·.shift d)) ms
      = (db.resolveMembers token found ms).map (List.map (·.shift d)) := by
  induction ms generalizing found with
  | nil => rfl
  | cons m ms ih =>
    unfold resolveMembers
    rw [resolveTable_shift]
    rcases db.resolveTable m.schemaName m.name (m.token.orElse token) with r | ⟨s, t⟩
    · rfl
    · have hfound : (if (found.map (·.shift d)).any fun u => decide (u.id = t.id.shift d) then
            found.map (·.shift d) else found.map (·.shift d) ++ [t.shift d])
          = (if found.any fun u => decide (u.id = t.id) then found else found ++ [t]).map
              (·.shift d) := by
        rw [any_id_shift (f := Table.shift d) (g := Table.id) fun _ => rfl,
          apply_ite (List.map _), List.map_append]
        rfl
      change (db.shift d).resolveMembers token (if (found.map (·.shift d)).any fun u =>
        decide (u.id = t.id.shift d) then found.map (·.shift d)
          else found.map (·.shift d) ++ [t.shift d]) ms = _
      rw [hfound, ih]
      rfl

theorem firstGrouped?_shift (ts : List Table) : firstGrouped? (ts.map (·.shift d))
    = (firstGrouped? ts).map (Prod.map (·.shift d) (·.shift d)) := by
  induction ts with
  | nil => rfl
  | cons t ts ih =>
    unfold firstGrouped? at ih ⊢
    rw [List.map_cons, List.findSome?_cons, List.findSome?_cons, ih]
    simp only [Table.shift]
    cases t.group <;> rfl

end Database

/-! The checks of drafts. -/

namespace Assembly

variable (db : Database) (i : Id .schema)

theorem checkName_shift (sort : ChildSort) (name : String) (token : Span) :
    checkName (db.shift d) (i.shift d) sort name token = checkName db i sort name token := by
  unfold checkName
  rw [db.schema?_shift]
  cases db.schema? i with
  | none => rfl
  | some s =>
    change (if name ∈ (s.shift d).names sort then _ else _) = _
    rw [s.names_shift]
    rfl

theorem checkRef_shift (r : Ref) :
    checkRef (db.shift d) (i.shift d) (r.shift d) = checkRef db i r := by
  unfold checkRef
  rw [db.schema?_shift]
  cases db.schema? i with
  | none => rfl
  | some s =>
    change (if (s.refs.map (·.shift d)).any _ then _ else _) = _
    rw [List.any_map]
    simp only [Function.comp_def, Ref.connectsSame_shift]
    rfl

theorem checkUngrouped_shift (ts : List Table) (token : Span) :
    checkUngrouped (db.shift d) (ts.map (·.shift d)) token = checkUngrouped db ts token := by
  unfold checkUngrouped
  rw [Database.firstGrouped?_shift]
  rcases Database.firstGrouped? ts with _ | ⟨t, g⟩
  · rfl
  · change Attempt.reject _ = Attempt.reject _
    rw [db.qualifiedTableName?_shift, db.tableGroup?_shift, Option.elim_map]
    rfl

end Assembly

end Catalog
