import Catalog.Proofs.Namespace
import Catalog.Proofs.Resolution

/-!
The names of tables. The tables of a schema have different names, yet one of them may have the name
of another for its alias. Names are looked up from the first table on, so that the earlier of the
two answers to that name, and the later one is beyond the reach of refs and table groups.
-/
namespace Catalog

namespace Database

variable {db : Database} {s : Schema} {t : Table}

/-- Whatever looks for a table by its name finds that table: its schema, the database, and endpoints
and members that are declared with a name of its schema. -/
structure FindsByName (db : Database) (s : Schema) (t : Table) : Prop where
  schema : s.findTable? t.name = some t
  database : db.findTable (some s.name) t.name = .ok (some t)
  endpoint : ∀ token (d : Decl.Endpoint) e, d.tableName = t.name →
    s.isNamed (d.schemaName.getD db.config.defaultSchemaName) = true →
    db.resolveEndpoint token d = .ok e → e.table = t.id
  member : ∀ token (m : Decl.Member), m.name = t.name →
    s.isNamed (m.schemaName.getD db.config.defaultSchemaName) = true →
    db.resolveMembers token [] [m] = .ok [t]

/-- What a schema finds among its tables is found by each of its names. -/
theorem Named.locate_of_findTable? (h : db.Named) (hs : s ∈ db.schemas) {schema : Option String}
    {name : String} (hschema : s.isNamed (schema.getD db.config.defaultSchemaName) = true)
    (ht : s.findTable? name = some t) : db.locate schema name = .ok (some (s, t)) := by
  simp only [locate, h.findSchema?_of_isNamed hs hschema, ht, Option.map_some]

theorem resolveTable_of_locate {schema : Option String} {name : String} (token : Span)
    (h : db.locate schema name = .ok (some (s, t))) :
    db.resolveTable schema name token = .ok (s, t) := by
  simp only [resolveTable, h]

theorem Named.findsByName (h : db.Named) (hs : s ∈ db.schemas)
    (ht : s.findTable? t.name = some t) : db.FindsByName s t where
  schema := ht
  database := findTable_eq_ok_iff.mpr ⟨s, h.findSchema?_of_isNamed hs s.isNamed_name, ht⟩
  endpoint := by
    intro token d e hname hschema hresolve
    have hlocate := h.locate_of_findTable? hs hschema ht
    obtain ⟨s', t', ids, htable, -, rfl⟩ := resolveEndpoint_eq_ok hresolve
    rw [hname, resolveTable_of_locate _ hlocate] at htable
    cases htable
    rfl
  member := by
    intro token m hname hschema
    have hlocate := h.locate_of_findTable? hs hschema ht
    rw [← hname] at hlocate
    rw [resolveMembers, resolveTable_of_locate _ hlocate]
    rfl

end Database

namespace Assembly

variable {a : Assembly}

/-- A table is found by its name exactly if no earlier table of its schema has that name as an
alias. -/
theorem Reachable.findsByName_iff (h : a.Reachable) :
    ∀ s ∈ a.database.schemas, ∀ pre t post, s.tables = pre ++ t :: post →
      (a.database.FindsByName s t ↔ ∀ u ∈ pre, u.aliasName ≠ some t.name) := by
  intro s hs pre t post hsplit
  have hnamed := h.sound.named
  rw [← Schema.findTable?_self_iff hsplit ((hnamed.distinct s hs).children .table)]
  exact ⟨fun hfinds => hfinds.schema, hnamed.findsByName hs⟩

end Assembly

/-- Two tables, the first one with the name of the second as an alias. -/
def Decl.Bundle.people : Decl.Bundle where
  tables := [{ name := "people", aliasName := some "users" }, { name := "users" }]

theorem Assembly.exists_build_people : ∃ a s t u, build .people {} = .ok a ∧
    s ∈ a.database.schemas ∧ s.tables = [t, u] ∧ t.name = "people" ∧
      t.aliasName = some "users" ∧ u.name = "users" := by
  have hbuilt : (build .people {}).toOption.any (fun a => a.database.schemas.any fun s =>
      s.tables.map (·.toTableInfo) =
        [{ name := "people", aliasName := some "users" }, { name := "users" }]) = true := by
    decide +kernel
  obtain ⟨a, ha, heval⟩ := exists_ok_of_any hbuilt
  obtain ⟨s, hs, hinfos⟩ := List.any_eq_true.mp heval
  obtain ⟨t, rest, htables, ht, hrest⟩ := List.map_eq_cons_iff.mp (of_decide_eq_true hinfos)
  obtain ⟨u, _, rfl, hu, hnil⟩ := List.map_eq_cons_iff.mp hrest
  obtain rfl := List.map_eq_nil_iff.mp hnil
  refine ⟨a, s, t, u, ha, hs, htables, ?_, ?_, ?_⟩
  · rw [ht]
  · rw [ht]
  · rw [hu]

theorem Assembly.findsByName_iff_people : ∃ a s t u, build .people {} = .ok a ∧ a.Reachable ∧
    s ∈ a.database.schemas ∧ s.tables = [t, u] ∧
      (a.database.FindsByName s t ↔ ∀ v ∈ ([] : List Table), v.aliasName ≠ some t.name) ∧
      (a.database.FindsByName s u ↔ ∀ v ∈ [t], v.aliasName ≠ some u.name) := by
  obtain ⟨a, s, t, u, ha, hs, htables, -⟩ := exists_build_people
  have hreach : a.Reachable := .build ha
  exact ⟨a, s, t, u, ha, hreach, hs, htables, hreach.findsByName_iff s hs [] t [u] htables,
    hreach.findsByName_iff s hs [t] u [] htables⟩

/-- The first table takes the name of the second. -/
theorem Assembly.not_findsByName_people : ∃ a, build .people {} = .ok a ∧ a.Reachable ∧
    ∃ s ∈ a.database.schemas, ∃ t ∈ s.tables, ∃ u ∈ s.tables, t ≠ u ∧
      s.findTable? t.name = some u ∧ a.database.findTable (some s.name) t.name = .ok (some u) ∧
      ¬ a.database.FindsByName s t := by
  obtain ⟨a, s, u, t, ha, hs, htables, hname, halias, ht⟩ := exists_build_people
  have hreach : a.Reachable := .build ha
  have hschema := hreach.sound.named.findSchema?_of_isNamed hs s.isNamed_name
  have hne : t ≠ u := by
    rintro rfl
    simp [hname] at ht
  have hfinds : s.findTable? t.name = some u := by
    rw [Schema.findTable?, htables, List.find?_cons, (u.isNamed_iff _).mpr (.inr (ht ▸ halias))]
  refine ⟨a, ha, hreach, s, hs, t, by simp [htables], u, by simp [htables], hne, hfinds,
    Database.findTable_eq_ok_iff.mpr ⟨s, hschema, hfinds⟩, ?_⟩
  intro h
  exact hne (Option.some.inj (h.schema.symm.trans hfinds))

end Catalog
