import Catalog.Proofs.Lookup
import Catalog.Proofs.Validity

/-!
The export of a built database, told from its bundle alone: the records of each schema in the order
of their declaration, with every name resolved in the outline.
-/
namespace Catalog

namespace Decl

def Index.toExport (d : Index) : Export.Index where
  toIndexInfo := d.toIndexInfo
  columns := d.columns.map (·.toIndexColumnInfo)

/-- A table is exported with the names of the tags that it mentions, each once. -/
def Table.toExport (d : Table) : Export.Table where
  toTableInfo := d.toTableInfo
  fields := d.fields.map (·.toFieldInfo)
  indexes := d.indexes.map (·.toExport)
  tags := (d.tags.map (·.name)).eraseDups

def Enum.toExport (d : Enum) : Export.Enum where
  toEnumInfo := d.toEnumInfo
  values := d.values.map (·.toEnumValueInfo)

def Ref.toExport (d : Ref) : Export.Ref where
  toRefInfo := d.toRefInfo
  endpoints := d.endpoints.map (·.toEndpointInfo)

/-- A group is exported with the tables that its members resolve to, each at its first mention. -/
def TableGroup.toExport (c : Config) (o : Outline) (d : TableGroup) : Export.TableGroup where
  toTableGroupInfo := d.toTableGroupInfo
  tables := (o.members c d).map fun p => { tableName := p.table, schemaName := p.schema }

def Schema.toExport (c : Config) (o : Outline) (s : Schema) : Export.Schema where
  toSchemaInfo := s.toSchemaInfo
  tables := s.tables.map (·.toExport)
  enums := s.enums.map (·.toExport)
  tableGroups := s.tableGroups.map (·.toExport c o)
  refs := s.refs.map (·.toExport)
  tags := s.withImpliedTags.tags.map (·.toTagInfo)

/-- What a bundle declares, schema by schema. -/
def Bundle.tree (b : Bundle) (c : Config) : Export.Tree where
  toDatabaseInfo := b.project
  hasDefaultSchema := (b.outline c).any (Stage.isDefault c)
  schemas := (b.outline c).map (·.toExport c (b.outline c))

/-- Each record outside of schema declarations is gathered in exactly one schema. -/
theorem Bundle.existsUnique_target {b : Bundle} (c : Config)
    (apart : b.schemas.Pairwise Schema.Apart) {r : Item} (hr : r ∈ b.routed) :
    ∃! s, s ∈ b.roster c ∧ s.isNamed (r.target c) = true := by
  have hsome : ∃ s ∈ b.roster c, s.isNamed (r.target c) = true := by
    by_cases hdeclared : b.schemas.any (·.isNamed (r.target c)) = true
    · obtain ⟨s, hs, hsn⟩ := List.any_eq_true.mp hdeclared
      exact ⟨s, List.mem_append_left _ hs, hsn⟩
    · have himplied : r.target c ∈ b.implied c := by
        apply List.mem_eraseDups.mpr
        exact List.mem_filter.mpr ⟨List.mem_map.mpr ⟨r, hr, rfl⟩, by simpa using hdeclared⟩
      exact ⟨c.impliedSchema (r.target c),
        List.mem_append_right _ (List.mem_map.mpr ⟨_, himplied, rfl⟩),
        (c.isNamed_impliedSchema _ _).mpr rfl⟩
  obtain ⟨s, hs, hsn⟩ := hsome
  refine ⟨s, ⟨hs, hsn⟩, ?_⟩
  rintro t ⟨ht, htn⟩
  by_contra hne
  exact (apart_roster apart).forall ht hs hne _ ⟨htn, hsn⟩

end Decl

/-! What mirrors a declaration is exported like it. -/

theorem filterMap_eq_of_paired {α β γ : Type} {R : α → β → Prop} {f : α → Option γ} {g : β → γ}
    {l : List α} {l' : List β} (h : List.Forall₂ R l l')
    (hfg : ∀ a b, R a b → f a = some (g b)) : l.filterMap f = l'.map g := by
  induction h with
  | nil => rfl
  | cons hab _ ih => rw [List.filterMap_cons, hfg _ _ hab, List.map_cons, ih]

theorem Index.toExport_declared (i : Index) : i.declared.toExport = i.toExport := by
  simp [declared, Decl.Index.toExport, toExport, Function.comp_def, IndexColumn.declared]

theorem Enum.toExport_of_declared {e : Enum} {d : Decl.Enum} (h : e.declared = d.bare) :
    e.toExport = d.toExport := by
  have hexport := congrArg Decl.Enum.toExport h
  simp only [declared, Decl.Enum.toExport, List.map_map] at hexport
  exact hexport

theorem Ref.Mirrors.toExport {db : Database} {c : Config} {o : Decl.Outline} {r : Ref}
    {d : Decl.Ref} (h : r.Mirrors db c o d) : r.toExport = d.toExport := by
  have hends : r.endpoints.map (·.toEndpointInfo) = d.endpoints.map (·.toEndpointInfo) :=
    map_eq_of_paired h.endpoints fun _ _ he => he.info
  rw [Ref.toExport, Decl.Ref.toExport, h.info, hends]

namespace Assembly.Mirrors

variable {c : Config} {project : DatabaseInfo} {x : Decl.Stage} {a : Assembly} {s : Schema}

theorem member?_eq (h : a.Mirrors c project x) {i : Id .table} {p : TablePath}
    (hp : (i, p) ∈ a.database.tablePaths) :
    a.database.member? i = some { tableName := p.table, schemaName := p.schema } := by
  obtain ⟨s, hs, t, ht, rfl, rfl⟩ := Database.mem_tablePaths.mp hp
  exact Database.member?_of_mem (Database.nodup_arena (h.nodup_numbers .table)) hs ht

theorem toExportTable_eq (h : a.Mirrors c project x) (hs : s ∈ a.database.schemas) {t : Table}
    {d : Decl.Table} (hd : t.declared = d.bare) (htagged : t.Tagged s) :
    a.database.toExportTable t = d.toExport := by
  have hexport : t.declared.toExport = d.bare.toExport := congrArg Decl.Table.toExport hd
  have hbare : d.bare.toExport = d.toExport := rfl
  have htags : (t.tags.filterMap fun id => (a.database.tag? id).map (·.name))
      = (t.mentions.map (·.name)).eraseDups := by
    rw [← List.map_id (t.mentions.map (·.name)).eraseDups]
    apply filterMap_eq_of_paired htagged
    rintro _ name ⟨g, hg, rfl, rfl⟩
    have hmem : g ∈ a.database.tags := List.mem_flatMap.mpr ⟨s, hs, hg⟩
    rw [Database.tag?_of_mem (Database.nodup_arena (h.nodup_numbers .tag)) hmem]
    rfl
  rw [← hbare, ← hexport, Database.toExportTable, htags]
  simp [Decl.Table.toExport, Table.declared, Function.comp_def, Field.declared,
    Index.toExport_declared]

theorem toExportTableGroup_eq (h : a.Mirrors c project x) {g : TableGroup} {d : Decl.TableGroup}
    (hg : g.Mirrors a.database c x.outline d) :
    a.database.toExportTableGroup g = d.toExport c x.outline := by
  rw [Database.toExportTableGroup, Decl.TableGroup.toExport, hg.info]
  congr 1
  exact filterMap_eq_of_paired hg.tables fun _ _ hp => h.member?_eq hp

/-- A schema whose tables are linked to their tags is exported like its declaration. -/
theorem toExportSchema_eq (h : a.Mirrors c project x) (htagged : x.tagged = true)
    (hs : s ∈ a.database.schemas) {d : Decl.Schema}
    (hm : s.Mirrors a.database c x.outline d.withImpliedTags) :
    a.database.toExportSchema s = d.toExport c x.outline := by
  have htables : s.tables.map a.database.toExportTable = d.tables.map (·.toExport) := by
    apply map_eq_of_paired (paired_imp_of_mem hm.tables fun t ht e _ he => And.intro he ht)
    rintro t e ⟨he, ht⟩
    exact h.toExportTable_eq hs he (h.tagged htagged s hs t ht)
  have henums : s.enums.map (·.toExport) = d.enums.map (·.toExport) :=
    map_eq_of_paired hm.enums fun _ _ he => Enum.toExport_of_declared he
  have hgroups : s.tableGroups.map a.database.toExportTableGroup
      = d.tableGroups.map (·.toExport c x.outline) :=
    map_eq_of_paired hm.tableGroups fun _ _ hg => h.toExportTableGroup_eq hg
  have hrefs : s.refs.map (·.toExport) = d.refs.map (·.toExport) :=
    map_eq_of_paired hm.refs fun _ _ hr => hr.toExport
  have htags : s.tags.map (·.toTagInfo) = d.withImpliedTags.tags.map (·.toTagInfo) :=
    map_eq_of_paired hm.tags fun _ _ ht => congrArg Decl.Tag.toTagInfo ht
  rw [Database.toExportSchema, Decl.Schema.toExport, hm.info, htables, henums, hgroups, hrefs,
    htags]
  rfl

end Assembly.Mirrors

theorem Decl.Outline.Alike.toExport_eq {c : Config} {o o' : Decl.Outline} (h : Alike c o o')
    (s : Decl.Schema) : s.toExport c o = s.toExport c o' := by
  have hgroups : s.tableGroups.map (·.toExport c o) = s.tableGroups.map (·.toExport c o') := by
    apply List.map_congr_left
    intro g _
    rw [Decl.TableGroup.toExport, Decl.TableGroup.toExport, h.members_eq]
  rw [Decl.Schema.toExport, Decl.Schema.toExport, hgroups]

/-- The stage that a build ends in. -/
theorem Assembly.mirrors_of_build {b : Decl.Bundle} {c : Config} {a : Assembly}
    (h : build b c = .ok a) : a.Follows c b.project
      { outline := (b.outline c).map (·.withImpliedTags)
        tagged := true
        marked := (b.outline c).any (Decl.Stage.isDefault c) } := by
  obtain ⟨-, ha⟩ := follows_of_build h
  rw [Decl.Bundle.run_steps c (Decl.Bundle.apart_of_sound ha.mirrors.sound)] at ha
  exact ha

/-- Schema by schema, a build ends with what the bundle declares for its roster. -/
theorem Assembly.rostered_of_build {b : Decl.Bundle} {c : Config} {a : Assembly}
    (h : build b c = .ok a) : List.Forall₂ (fun s r => Schema.Mirrors a.database c
        ((b.outline c).map (·.withImpliedTags)) s (b.gather c r).withImpliedTags)
      a.database.schemas (b.roster c) := by
  have hschemas := (mirrors_of_build h).mirrors.schemas
  rw [Decl.Bundle.outline, List.map_map, List.forall₂_map_right_iff] at hschemas
  rw [Decl.Bundle.outline, List.map_map]
  exact hschemas

/-- The schema that a record outside of schema declarations is for is there, with what is gathered
for it. -/
theorem Assembly.exists_target_of_build {b : Decl.Bundle} {c : Config} {a : Assembly}
    (h : build b c = .ok a) {rec : Decl.Item} (hrec : rec ∈ b.routed) :
    ∃ (i : Nat) (s : Schema) (r : Decl.Schema),
      a.database.schemas[i]? = some s ∧ (b.roster c)[i]? = some r ∧
      s.isNamed (rec.target c) = true ∧ r.isNamed (rec.target c) = true ∧
      s.Mirrors a.database c ((b.outline c).map (·.withImpliedTags))
        (b.gather c r).withImpliedTags := by
  have apart := Decl.Bundle.apart_of_sound (follows_of_build h).2.mirrors.sound
  obtain ⟨r, ⟨hr, hnamed⟩, -⟩ := b.existsUnique_target c apart hrec
  obtain ⟨i, hi⟩ := List.mem_iff_getElem?.mp hr
  obtain ⟨s, hs, hsr⟩ := getElem?_of_paired (rostered_of_build h).flip hi
  exact ⟨i, s, r, hs, hi, (hsr.isNamed _).trans hnamed, hnamed, hsr⟩

theorem Assembly.toExport_eq_tree {b : Decl.Bundle} {c : Config} {a : Assembly}
    (h : build b c = .ok a) : a.database.toExport = b.tree c := by
  have hm := (mirrors_of_build h).mirrors
  have halike := Decl.Outline.alike_withImpliedTags c (b.outline c)
  have hschemas : a.database.schemas.map a.database.toExportSchema
      = (b.outline c).map (·.toExport c (b.outline c)) := by
    have hpaired := List.forall₂_map_right_iff.mp hm.schemas
    apply map_eq_of_paired (paired_imp_of_mem hpaired fun s hs d _ hd => And.intro hd hs)
    rintro s d ⟨hd, hs⟩
    rw [← halike.toExport_eq]
    exact hm.toExportSchema_eq rfl hs hd
  rw [Database.toExport, Database.header, Decl.Bundle.tree, hschemas, hm.project, hm.marked]

/-- Everything declared is exported, once and in its order, and nothing else is: a record outside of
schema declarations is found in the one schema that its name refers to. -/
theorem Database.toExport_of_build {b : Decl.Bundle} {c : Config} {db : Database}
    (h : Database.build b c = .ok db) :
    db.toExport = b.tree c ∧
      ∀ r ∈ b.routed, ∃! s, s ∈ b.roster c ∧ s.isNamed (r.target c) = true := by
  obtain ⟨a, ha, rfl⟩ := build_eq_ok_iff.mp h
  have apart := Decl.Bundle.apart_of_sound (Assembly.follows_of_build ha).2.mirrors.sound
  exact ⟨Assembly.toExport_eq_tree ha, fun r hr => b.existsUnique_target c apart hr⟩

/-- Two tables in schemas that nothing declares, a ref from the second to the first, and a group of
both. -/
def Decl.Bundle.orders : Decl.Bundle where
  tables := [
    { name := "users", fields := [.ofType "id" "int"] },
    { name := "orders", schemaName := some "sales", fields := [.ofType "user" "int"],
      tags := [{ name := "core" }, { name := "core" }] }]
  refs := [.between
    ((Decl.Endpoint.covering "orders" ["user"] .many).inSchema "sales")
    (.covering "users" ["id"] .one)]
  tableGroups := [
    { name := "shop", schemaName := some "sales",
      tables := [{ name := "users" }, { name := "orders", schemaName := some "sales" }] }]

theorem Database.exists_build_orders : ∃ db, Database.build .orders {} = .ok db := by
  have hbuilt : (Database.build .orders {}).toOption.any (fun _ => true) = true := by
    decide +kernel
  obtain ⟨db, hdb, -⟩ := exists_build_of_any hbuilt
  exact ⟨db, hdb⟩

theorem Database.toExport_of_build_orders : ∃ db, Database.build .orders {} = .ok db ∧
    db.toExport = Decl.Bundle.tree .orders {} := by
  obtain ⟨db, hdb⟩ := exists_build_orders
  exact ⟨db, hdb, (Database.toExport_of_build hdb).1⟩

end Catalog
