import Catalog.Proofs.DefaultSchema.Receives

/-!
The default schema. Records that name no schema go where the default name leads, which is a schema
of that name unless a declared schema has it as its alias. A database that has been built is marked
exactly if its default schema holds a record, but a schema that cannot be created leaves the mark
behind.
-/
namespace Catalog

namespace Database

variable {b : Decl.Bundle} {c : Config} {db : Database}

/-- A database that has been built is marked exactly if the default schema holds anything. -/
theorem marked_iff_populated (h : build b c = .ok db) : db.hasDefaultSchema = true ↔
    ∃ s ∈ db.schemas, s.name = c.defaultSchemaName ∧ s.Populated := by
  obtain ⟨a, ha, rfl⟩ := build_eq_ok_iff.mp h
  exact Assembly.hasDefaultSchema_iff ha

end Database

/-- A declared default schema that a record names by its alias. -/
def Decl.Bundle.quays : Decl.Bundle where
  schemas := [{ name := "public", aliasName := some "p" }]
  tags := [{ name := "core", schemaName := some "p" }]

/-- A declaration alone does not mark the database, a record that is routed there does. -/
theorem Database.marked_iff_populated_quays :
    (∃ db, build { Decl.Bundle.quays with tags := [] } {} = .ok db ∧
      (db.hasDefaultSchema = true ↔ ∃ s ∈ db.schemas, s.name = "public" ∧ s.Populated) ∧
      db.hasDefaultSchema = false) ∧
    ∃ db, build .quays {} = .ok db ∧
      (db.hasDefaultSchema = true ↔ ∃ s ∈ db.schemas, s.name = "public" ∧ s.Populated) ∧
      db.hasDefaultSchema = true := by
  have hempty : (build { Decl.Bundle.quays with tags := [] } {}).toOption.any
      (!·.hasDefaultSchema) = true := by
    decide +kernel
  have hrouted : (build .quays {}).toOption.any (·.hasDefaultSchema) = true := by
    decide +kernel
  obtain ⟨db, hdb, hunmarked⟩ := exists_build_of_any hempty
  obtain ⟨db', hdb', hmarked⟩ := exists_build_of_any hrouted
  exact ⟨⟨db, hdb, marked_iff_populated hdb, by simpa using hunmarked⟩,
    db', hdb', marked_iff_populated hdb', hmarked⟩

/-- Records that name no schema are where the default name leads. That is the default schema, and
the database is marked, exactly if no declaration gives the name away. -/
theorem Database.hasDefault_iff_keepsDefault {b : Decl.Bundle} {c : Config} {db : Database}
    (h : build b c = .ok db) (hb : b.LeavesDefault) :
    (∃ s, db.findSchema? c.defaultSchemaName = some s ∧ s.Receives db c b) ∧
      (db.hasDefaultSchema = true ↔ b.KeepsDefault c) ∧ (db.HasDefault b c ↔ b.KeepsDefault c) := by
  obtain ⟨a, ha, rfl⟩ := build_eq_ok_iff.mp h
  have hnames := (Assembly.Reachable.build ha).sound.named
  obtain ⟨s, hs, hnamed, hreceives⟩ := Assembly.receives_of_build ha hb
  have hmarked : s.name = c.defaultSchemaName → a.database.hasDefaultSchema = true := fun hname =>
    (Assembly.hasDefaultSchema_iff ha).mpr ⟨s, hs, hname, hreceives.populated hb⟩
  have hname : a.database.hasDefaultSchema = true → s.name = c.defaultSchemaName := by
    intro h
    obtain ⟨s', hs', hname, -⟩ := (Assembly.hasDefaultSchema_iff ha).mp h
    rw [hnames.eq_of_isNamed hs hs' hnamed (hname ▸ s'.isNamed_name), hname]
  rw [← Assembly.name_eq_default_iff ha hs hnamed]
  refine ⟨⟨s, hnames.findSchema?_of_isNamed hs hnamed, hreceives⟩, ⟨hname, hmarked⟩, ?_⟩
  exact ⟨fun h => hname h.1, fun heq => ⟨hmarked heq, s, hs, heq, hreceives⟩⟩

theorem Database.hasDefault_iff_keepsDefault_branches : ∃ db, build .branches {} = .ok db ∧
    Decl.Bundle.LeavesDefault .branches ∧ Decl.Bundle.KeepsDefault .branches {} ∧
    (∃ s, db.findSchema? "public" = some s ∧ s.Receives db {} .branches) ∧
    db.HasDefault .branches {} := by
  have hbuilt : (build .branches {}).toOption.any (fun _ => true) = true := by
    decide +kernel
  have hleaves : Decl.Bundle.LeavesDefault .branches := by
    decide
  have hkeeps : Decl.Bundle.KeepsDefault .branches {} := by
    decide
  obtain ⟨db, hdb, -⟩ := exists_build_of_any hbuilt
  obtain ⟨hreceives, -, hdefault⟩ := hasDefault_iff_keepsDefault hdb hleaves
  exact ⟨db, hdb, hleaves, hkeeps, hreceives, hdefault.mpr hkeeps⟩

/-- A table and an enum that name no schema, and a schema with the default name as its alias. -/
def Decl.Bundle.lodgers : Decl.Bundle where
  schemas := [{ name := "main", aliasName := some "public" }]
  tables := [{ name := "users", fields := [.ofType "status" "status"] }]
  enums := [.ofValues "status" ["active"]]

/-- No schema has the default name, and the database is not marked. -/
theorem Database.not_hasDefault_lodgers : ∃ db, build .lodgers {} = .ok db ∧
    Decl.Bundle.LeavesDefault .lodgers ∧ db.hasDefaultSchema = false ∧
    db.schemas.map (·.name) = ["main"] ∧ ¬ db.HasDefault .lodgers {} := by
  have hbuilt : (build .lodgers {}).toOption.any (fun db =>
      !db.hasDefaultSchema && db.schemas.map (·.name) = ["main"]) = true := by
    decide +kernel
  obtain ⟨db, hdb, heval⟩ := exists_build_of_any hbuilt
  obtain ⟨hunmarked, hnames⟩ := Bool.and_eq_true_iff.mp heval
  rw [Bool.not_eq_true'] at hunmarked
  refine ⟨db, hdb, by decide, hunmarked, of_decide_eq_true hnames, ?_⟩
  rintro ⟨hmarked, -⟩
  rw [hunmarked] at hmarked
  cases hmarked

theorem Database.markDefault_eq_self_iff (db : Database) :
    db.markDefault = db ↔ db.hasDefaultSchema = true := by
  constructor
  · exact fun h => h ▸ rfl
  · intro h
    rw [markDefault, ← h]

namespace Assembly

variable {a b : Assembly} {name : String} {r : Rejection}

/-- The mark is set before the schema is there, and stays where no identifier is left for one. -/
theorem run_getOrCreateSchema_none (hmissing : a.database.findSchema? name = none)
    (hi : a.ids.peek .schema = none) : (getOrCreateSchema name).run a =
      (.error { cause := .idSpaceExhausted Kind.schema.counter a.ids.base },
        if name = a.database.config.defaultSchemaName then ⟨a.database.markDefault, a.ids⟩
        else a) := by
  unfold getOrCreateSchema
  rw [Attempt.run_bind_ok (x := .state) (s := a) rfl]
  simp only [hmissing]
  split
  · rw [Attempt.run_bind_ok (x := markDefault) (s := a) rfl]
    exact Attempt.run_bind_error
      (run_pushSchema_none (a := ⟨a.database.markDefault, a.ids⟩) hi _ _) _
  · exact Attempt.run_bind_error (run_pushSchema_none hi _ _) _

/-- A schema that is wanted in vain costs no identifier and leaves nothing but the mark, which is
set if it was the default schema. -/
theorem unchanged_iff_of_stranded (h : (getOrCreateSchema name).run a = (.error r, b)) :
    b.ids = a.ids ∧
      b.database = (if name = a.database.config.defaultSchemaName then a.database.markDefault
        else a.database) ∧
      (b.database = a.database ↔
        (name = a.database.config.defaultSchemaName → a.database.hasDefaultSchema = true)) := by
  have hstrands := (meets_getOrCreateSchema a name).of_run_error h
  rw [run_getOrCreateSchema_none hstrands.missing hstrands.exhausted] at h
  obtain ⟨-, rfl⟩ := Prod.mk.inj h
  split
  · rename_i hname
    rw [Database.markDefault_eq_self_iff]
    exact ⟨rfl, rfl, fun h _ => h, fun h => h hname⟩
  · rename_i hname
    exact ⟨rfl, rfl, fun _ heq => absurd heq hname, fun _ => rfl⟩

/-- One schema, and no identifier left for another. -/
theorem exists_stranded_archive : ∃ a b r,
    build { schemas := [{ name := "archive" }] } { idBase := 4294967295 } = .ok a ∧
      (getOrCreateSchema "public").run a = (.error r, b) ∧ r.kind = .idSpaceExhausted ∧
      a.database.hasDefaultSchema = false ∧ b.database.hasDefaultSchema = true := by
  have hbuilt : (build { schemas := [{ name := "archive" }] }
      { idBase := 4294967295 }).toOption.any (fun a =>
        match (getOrCreateSchema "public").run a with
        | (.error r, b) => r.kind = .idSpaceExhausted ∧ a.database.hasDefaultSchema = false ∧
            b.database.hasDefaultSchema = true
        | (.ok _, _) => false) = true := by
    decide +kernel
  obtain ⟨a, ha, heval⟩ := exists_ok_of_any hbuilt
  split at heval
  · rename_i r b hrun
    exact ⟨a, b, r, ha, hrun, of_decide_eq_true heval⟩
  · cases heval

theorem unchanged_iff_of_stranded_archive : ∃ a b r,
    build { schemas := [{ name := "archive" }] } { idBase := 4294967295 } = .ok a ∧
      (getOrCreateSchema "public").run a = (.error r, b) ∧ b.ids = a.ids ∧
      b.database = (if "public" = a.database.config.defaultSchemaName then a.database.markDefault
        else a.database) ∧
      (b.database = a.database ↔
        ("public" = a.database.config.defaultSchemaName → a.database.hasDefaultSchema = true)) := by
  obtain ⟨a, b, r, ha, hrun, -⟩ := exists_stranded_archive
  exact ⟨a, b, r, ha, hrun, unchanged_iff_of_stranded hrun⟩

/-- The mark of a default schema that could not be created stays. -/
theorem not_unchanged_archive : ∃ a b r,
    build { schemas := [{ name := "archive" }] } { idBase := 4294967295 } = .ok a ∧
      a.Reachable ∧ (getOrCreateSchema "public").run a = (.error r, b) ∧
      r.kind = .idSpaceExhausted ∧ a.database.hasDefaultSchema = false ∧
      b.database.hasDefaultSchema = true ∧ b.database ≠ a.database := by
  obtain ⟨a, b, r, ha, hrun, hkind, hbefore, hafter⟩ := exists_stranded_archive
  refine ⟨a, b, r, ha, .build ha, hrun, hkind, hbefore, hafter, ?_⟩
  intro heq
  rw [heq, hbefore] at hafter
  cases hafter

end Assembly

end Catalog
