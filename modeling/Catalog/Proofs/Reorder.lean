import Catalog.Proofs.Reorder.EnumLinks

/-!
The order of independent records. Whether a bundle is accepted does not depend on the order in which
refs, enums, tags and groups follow one another outside of schemas. If it is, the database holds the
same in any order, and what is linked to what is the same by name.
-/
namespace Catalog

namespace Export

/-- The same schema, with all its children but tables in another order. -/
structure Schema.Reorders (s s' : Schema) : Prop where
  info : s'.toSchemaInfo = s.toSchemaInfo
  tables : s'.tables = s.tables
  enums : s.enums.Perm s'.enums
  tableGroups : s.tableGroups.Perm s'.tableGroups
  refs : s.refs.Perm s'.refs
  tags : s.tags.Perm s'.tags

/-- The same tree, with its schemas in another order as well. -/
structure Tree.Reorders (x x' : Tree) : Prop where
  header : x'.toHeader = x.toHeader
  schemas : ∃ ss, List.Forall₂ Schema.Reorders x.schemas ss ∧ ss.Perm x'.schemas

end Export

/-- Databases with the same content and the same links, where all is known by name. -/
structure Database.Concurs (db db' : Database) : Prop where
  tree : db.toExport.Reorders db'.toExport
  enumLinks : SameElements db.enumLinks db'.enumLinks
  tagLinks : SameElements db.tagLinks db'.tagLinks
  memberships : SameElements db.memberships db'.memberships
  refLinks : SameElements db.refLinks db'.refLinks

namespace Decl

variable {c : Config}

theorem Schema.Reorders.toExport {o o' : Outline} {s s' : Schema} (h : s.Reorders s')
    (ho : Outline.Alike c o o') : (s.toExport c o).Reorders (s'.toExport c o') := by
  rw [ho.toExport_eq]
  constructor
  · exact h.info
  · simp only [Schema.toExport, h.tables]
  · exact h.enums.map _
  · exact h.tableGroups.map _
  · exact h.refs.map _
  · exact h.withImpliedTags.tags.map _

theorem Bundle.Reorders.tree {b b' : Bundle} (h : b.Reorders b')
    (apart : b.schemas.Pairwise Schema.Apart) : (b.tree c).Reorders (b'.tree c) := by
  have ho := h.outline c
  have halike : Outline.Alike c (b.outline c) (b'.outline c) := ho.alike (apart_outline apart)
  constructor
  · simp only [Bundle.tree, h.project, ho.any_isDefault]
  · obtain ⟨u, hpaired, hperm⟩ := ho
    refine ⟨u.map (·.toExport c (b'.outline c)), ?_, hperm.map _⟩
    rw [Bundle.tree, List.forall₂_map_left_iff, List.forall₂_map_right_iff]
    exact hpaired.imp fun _ _ hs => hs.toExport halike

end Decl

namespace Assembly

variable {b b' : Decl.Bundle} {c : Config} {a a' : Assembly}

theorem concurs_of_build (h : build b c = .ok a) (h' : build b' c = .ok a')
    (hb : b.Reorders b') : a.database.Concurs a'.database := by
  have hm := (mirrors_of_build h).mirrors
  have hm' := (mirrors_of_build h').mirrors
  have ho := (hb.outline c).withImpliedTags
  have ho' := (hb.symm.outline c).withImpliedTags
  have hlisted := listed_of_build h
  have hlisted' := listed_of_build h'
  have both : ∀ {α : Type} {l l' : List α}, l ⊆ l' → l' ⊆ l → SameElements l l' :=
    fun hl hl' _ => ⟨fun hx => hl hx, fun hx => hl' hx⟩
  constructor
  · rw [toExport_eq_tree h, toExport_eq_tree h']
    exact hb.tree (build_ok_iff.mp ⟨a, h⟩).apart
  · exact both (enumLinks_subset h h' hb) (enumLinks_subset h' h hb.symm)
  · exact both (hm.tagLinks_subset hm' ho hlisted hlisted')
      (hm'.tagLinks_subset hm ho' hlisted' hlisted)
  · exact both (hm.memberships_subset hm' ho) (hm'.memberships_subset hm ho')
  · exact both (hm.refLinks_subset hm' ho) (hm'.refLinks_subset hm ho')

end Assembly

/-- Refs, enums, tags and groups outside of schemas may be declared in any order. -/
theorem Database.concurs_of_reorders {b b' : Decl.Bundle} (h : b.Reorders b') (c : Config) :
    ((∃ db, build b c = .ok db) ↔ ∃ db', build b' c = .ok db') ∧
      ∀ db db', build b c = .ok db → build b' c = .ok db' → db.Concurs db' := by
  constructor
  · rw [exists_build_iff_assembly, exists_build_iff_assembly, Assembly.build_ok_iff,
      Assembly.build_ok_iff, h.valid_iff c]
  · intro db db' hdb hdb'
    obtain ⟨a, ha, rfl⟩ := build_eq_ok_iff.mp hdb
    obtain ⟨a', ha', rfl⟩ := build_eq_ok_iff.mp hdb'
    exact Assembly.concurs_of_build ha ha' h

/-- What may be declared in any order, declared the other way round. -/
def Decl.Bundle.reversed (b : Bundle) : Bundle :=
  { b with
    refs := b.refs.reverse
    enums := b.enums.reverse
    tags := b.tags.reverse
    tableGroups := b.tableGroups.reverse }

theorem Decl.Bundle.reorders_reversed (b : Bundle) : b.Reorders b.reversed where
  project := rfl
  schemas := rfl
  tables := rfl
  refs := b.refs.reverse_perm.symm
  enums := b.enums.reverse_perm.symm
  tags := b.tags.reverse_perm.symm
  tableGroups := b.tableGroups.reverse_perm.symm

/-- Records of each sort in two schemas, most of which nothing declares. -/
def Decl.Bundle.harbour : Decl.Bundle where
  tables := [
    { name := "ships", tags := [{ name := "core" }],
      fields := [.ofType "id" "int", .withTypeSchema (.ofType "kind" "kind") "types"] },
    { name := "docks", fields := [.ofType "ship" "int", .ofType "last" "int"] }]
  refs := [
    .inSchema (.between (.covering "docks" ["ship"] .many) (.covering "ships" ["id"] .one)) "now",
    .inSchema (.between (.covering "docks" ["last"] .many) (.covering "ships" ["id"] .one)) "then"]
  enums := [{ name := "kind", schemaName := some "types" }, { name := "size" }]
  tags := [{ name := "core" }, { name := "old", schemaName := some "marks" }]
  tableGroups := [
    { name := "sea", schemaName := some "areas", tables := [{ name := "ships" }] },
    { name := "land", schemaName := some "marks", tables := [{ name := "docks" }] }]

/-- Two of the schemas change places, and the groups and refs are in the same ones as before. -/
theorem Database.concurs_of_reorders_harbour : ∃ db db', build .harbour {} = .ok db ∧
    build Decl.Bundle.harbour.reversed {} = .ok db' ∧ db.Concurs db' ∧
    db.schemas.map (·.name) = ["public", "marks", "now", "then", "types", "areas"] ∧
    db'.schemas.map (·.name) = ["public", "marks", "then", "now", "types", "areas"] ∧
    db.memberships = [⟨"marks", "land", ⟨"public", "docks"⟩⟩,
      ⟨"areas", "sea", ⟨"public", "ships"⟩⟩] := by
  have hbuilt : (build .harbour {}).toOption.any (fun db => decide (
      db.schemas.map (·.name) = ["public", "marks", "now", "then", "types", "areas"] ∧
      db.memberships = [⟨"marks", "land", ⟨"public", "docks"⟩⟩,
        ⟨"areas", "sea", ⟨"public", "ships"⟩⟩])) = true := by
    decide +kernel
  have hbuilt' : (build Decl.Bundle.harbour.reversed {}).toOption.any (fun db => decide (
      db.schemas.map (·.name) = ["public", "marks", "then", "now", "types", "areas"])) = true := by
    decide +kernel
  obtain ⟨db, hdb, heval⟩ := exists_build_of_any hbuilt
  obtain ⟨db', hdb', heval'⟩ := exists_build_of_any hbuilt'
  obtain ⟨hnames, hmemberships⟩ := of_decide_eq_true heval
  have hconcurs := (concurs_of_reorders Decl.Bundle.harbour.reorders_reversed {}).2 db db' hdb hdb'
  exact ⟨db, db', hdb, hdb', hconcurs, hnames, of_decide_eq_true heval', hmemberships⟩

end Catalog
