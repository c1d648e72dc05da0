import Catalog.Proofs.Outline.Nested
import Catalog.Proofs.Rebuild.Domain

/-!
Building a database again from its export. All records are nested in schemas then, so a link that
leads to a later schema is looked up too early. Nothing else stands in the way, and what is rebuilt
is exported as before unless an alias has come between a group and its member.
-/
namespace Catalog

namespace Decl.Bundle

variable {b : Bundle} {c : Config}

theorem steps_redeclare_tree (b : Bundle) (c : Config) : (b.tree c).redeclare.steps c
    = ((b.outline c).redeclared c).flatMap (·.steps) ++ [.implyTags] := by
  rw [steps, schemas_redeclare_tree]
  simp [taggedRecords, laterRecords, Export.Tree.redeclare]

theorem run_redeclare_tree (hsound : ((b.outline c).redeclared c).Sound c) :
    (({} : Stage).run c ((b.tree c).redeclare.steps c)).outline = (b.outline c).redeclared c := by
  have apart : (b.tree c).redeclare.schemas.Pairwise Schema.Apart :=
    schemas_redeclare_tree b c ▸ hsound.apart
  rw [run_steps c apart, outline_redeclare_tree]
  exact Outline.withImpliedTags_redeclared c (b.outline c)

/-- Declared again, an outline without shadowed members is valid if its links are in order. -/
theorem valid_redeclare_iff (h : Outline.Sound c ((b.outline c).map (·.withImpliedTags)))
    (hun : (b.outline c).Unshadowed c) :
    (b.tree c).redeclare.Valid c ↔ (b.outline c).Ordered c := by
  have hsound := h.redeclared hun
  have apart : (b.tree c).redeclare.schemas.Pairwise Schema.Apart :=
    schemas_redeclare_tree b c ▸ hsound.apart
  have hrefs : (b.tree c).redeclare.refs = [] := rfl
  have hgroups : (b.tree c).redeclare.tableGroups = [] := rfl
  rw [valid_iff, run_redeclare_tree hsound, linked_steps_iff c apart, schemas_redeclare_tree,
    Outline.nested_redeclared_iff hsound hun, hrefs, hgroups]
  simp [hsound]

end Decl.Bundle

namespace Assembly

variable {b : Decl.Bundle} {c : Config} {a : Assembly}

theorem ordered_iff_of_build (h : build b c = .ok a) :
    a.database.Ordered ↔ (b.outline c).Ordered c :=
  (mirrors_of_build h).mirrors.ordered_iff.trans (Decl.Outline.ordered_withImpliedTags c _)

theorem unshadowed_iff_of_build (h : build b c = .ok a) :
    a.database.Unshadowed ↔ (b.outline c).Unshadowed c :=
  (mirrors_of_build h).mirrors.unshadowed_iff.trans (Decl.Outline.unshadowed_withImpliedTags c _)

theorem rebuild_ok (h : build b c = .ok a) (hun : a.database.Unshadowed)
    (hord : a.database.Ordered) : ∃ db', Database.build a.database.toExport.redeclare c = .ok db' ∧
      db'.toExport = a.database.toExport := by
  have hunshadowed := (unshadowed_iff_of_build h).mp hun
  have hvalid := (Decl.Bundle.valid_redeclare_iff (mirrors_of_build h).mirrors.sound
    hunshadowed).mpr ((ordered_iff_of_build h).mp hord)
  obtain ⟨a', ha'⟩ := build_ok_iff.mpr hvalid
  rw [toExport_eq_tree h]
  refine ⟨a'.database, Database.build_eq_ok_iff.mpr ⟨a', ha', rfl⟩, ?_⟩
  rw [toExport_eq_tree ha']
  exact (b.tree_redeclare_iff c).mpr hunshadowed

theorem rebuild_error (h : build b c = .ok a) (hun : a.database.Unshadowed)
    (hord : ¬ a.database.Ordered) : ∃ r,
      Database.build a.database.toExport.redeclare c = .error r ∧ r.kind = .schemaNotFound := by
  have hunshadowed := (unshadowed_iff_of_build h).mp hun
  have hsound := (mirrors_of_build h).mirrors.sound
  rw [toExport_eq_tree h]
  cases hbuild : build (b.tree c).redeclare c with
  | ok a' =>
    have hvalid := build_ok_iff.mp ⟨a', hbuild⟩
    rw [Decl.Bundle.valid_redeclare_iff hsound hunshadowed, ← ordered_iff_of_build h] at hvalid
    exact absurd hvalid hord
  | error r =>
    refine ⟨r, Database.build_eq_error_iff.mpr hbuild, ?_⟩
    have hrefuses := refuses_of_build hbuild
    have hend := Decl.Bundle.run_redeclare_tree (hsound.redeclared hunshadowed)
    rw [Decl.Bundle.steps_redeclare_tree] at hrefuses hend
    exact hrefuses.kind_of_nested (hsound.redeclared hunshadowed) hend

end Assembly

namespace Database

variable {b : Decl.Bundle} {c : Config} {db : Database}

/-- Where no member is shadowed, a database is rebuilt exactly if no link leads to a later schema,
and the rebuild fails for want of that schema otherwise. -/
theorem rebuild_of_unshadowed (h : Database.build b c = .ok db) (hun : db.Unshadowed) :
    (db.Ordered → ∃ db', Database.build db.toExport.redeclare c = .ok db' ∧
      db'.toExport = db.toExport) ∧
    (¬ db.Ordered → ∃ r, Database.build db.toExport.redeclare c = .error r ∧
      r.kind = .schemaNotFound) := by
  obtain ⟨a, ha, rfl⟩ := build_eq_ok_iff.mp h
  exact ⟨Assembly.rebuild_ok ha hun, Assembly.rebuild_error ha hun⟩

theorem rebuild_of_unshadowed_orders : ∃ db, Database.build .orders {} = .ok db ∧
    db.Unshadowed ∧
    (db.Ordered → ∃ db', Database.build db.toExport.redeclare {} = .ok db' ∧
      db'.toExport = db.toExport) ∧
    (¬ db.Ordered → ∃ r, Database.build db.toExport.redeclare {} = .error r ∧
      r.kind = .schemaNotFound) := by
  have houtline : (Decl.Bundle.outline .orders {}).Unshadowed {} := by decide +kernel
  obtain ⟨db, hdb⟩ := exists_build_orders
  have hun : db.Unshadowed := by
    obtain ⟨a, ha, rfl⟩ := build_eq_ok_iff.mp hdb
    exact (Assembly.unshadowed_iff_of_build ha).mpr houtline
  exact ⟨db, hdb, hun, rebuild_of_unshadowed hdb hun⟩

/-- An export can be declared again with the same result exactly if no link leads to a later schema
and no member is shadowed. -/
theorem rebuild_iff (h : Database.build b c = .ok db) :
    (∃ db', Database.build db.toExport.redeclare c = .ok db' ∧ db'.toExport = db.toExport) ↔
      db.Ordered ∧ db.Unshadowed := by
  obtain ⟨a, ha, rfl⟩ := build_eq_ok_iff.mp h
  constructor
  · rintro ⟨db', hdb', hexport⟩
    obtain ⟨a', ha', rfl⟩ := build_eq_ok_iff.mp hdb'
    rw [Assembly.toExport_eq_tree ha] at ha' hexport
    rw [Assembly.toExport_eq_tree ha'] at hexport
    have hun := (b.tree_redeclare_iff c).mp hexport
    have hvalid := Assembly.build_ok_iff.mp ⟨a', ha'⟩
    rw [Decl.Bundle.valid_redeclare_iff (Assembly.mirrors_of_build ha).mirrors.sound hun,
      ← Assembly.ordered_iff_of_build ha] at hvalid
    exact ⟨hvalid, (Assembly.unshadowed_iff_of_build ha).mpr hun⟩
  · rintro ⟨hord, hun⟩
    exact Assembly.rebuild_ok ha hun hord

theorem rebuild_iff_orders : ∃ db, Database.build .orders {} = .ok db ∧
    ((∃ db', Database.build db.toExport.redeclare {} = .ok db' ∧ db'.toExport = db.toExport) ↔
      db.Ordered ∧ db.Unshadowed) := by
  obtain ⟨db, hdb⟩ := exists_build_orders
  exact ⟨db, hdb, rebuild_iff hdb⟩

/-- The ref of this bundle goes to the first schema on its own and leads to the second. -/
theorem not_rebuild_orders : ∃ db, Database.build .orders {} = .ok db ∧
    ¬ ∃ db', Database.build db.toExport.redeclare {} = .ok db' ∧ db'.toExport = db.toExport := by
  have hbuilt : (Database.build .orders {}).toOption.any (fun db =>
      (Database.build db.toExport.redeclare {}).toOption.isNone) = true := by
    decide +kernel
  obtain ⟨db, hdb, hnone⟩ := exists_build_of_any hbuilt
  refine ⟨db, hdb, ?_⟩
  rintro ⟨db', hdb', -⟩
  rw [hdb'] at hnone
  cases hnone

end Database

end Catalog
