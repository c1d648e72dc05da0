import Catalog.Proofs.History.Steady
import Catalog.Proofs.RefLinks.Grounded

/-!
Links that have been resolved stay right. Names are looked up in lists that get longer at the end
only, so the first schema, table or field to answer to a name is the first one for good, whatever
comes later and however it is named.
-/
namespace Catalog

/-- Looking up the names that an endpoint was declared with finds the table and the fields that it
is linked to. -/
def Endpoint.FoundIn (e : Endpoint) (db : Database) : Prop :=
  ∃ t, db.findTable e.schemaName e.tableName = .ok (some t) ∧ t.id = e.table ∧
    List.Forall₂ (fun i name => (t.findField? name).map (·.id) = some i) e.fields e.fieldNames

/-! Versions of a database that names are looked up in alike. -/

/-- A table answers to the same names, as do its fields. -/
structure Table.Retains (t t' : Table) : Prop where
  info : t'.toTableInfo = t.toTableInfo
  register : t'.register = t.register

structure Schema.Retains (s s' : Schema) : Prop where
  info : s'.toSchemaInfo = s.toSchemaInfo
  tables : Begins Table.Retains s.tables s'.tables

structure Database.Retains (db db' : Database) : Prop where
  config : db'.config = db.config
  schemas : Begins Schema.Retains db.schemas db'.schemas

theorem Table.Grows.retains {t t' : Table} (h : t.Grows t') : t.Retains t' where
  info := by rw [h.same]
  register := by
    have hfields : t.fields.map (fun f => (f.id, f.name)) = t'.fields.map fun f => (f.id, f.name) :=
      map_eq_of_paired h.fields fun f f' hf => by rw [hf.same]
    rw [register, register, hfields, h.same]

theorem Database.Grows.retains {db db' : Database} (h : db.Grows db') : db.Retains db' where
  config := by rw [h.same]
  schemas := h.schemas.imp fun _ _ hs =>
    ⟨by rw [hs.same], hs.tables.imp fun _ _ ht => ht.retains⟩

/-- Binding tags leaves everything where it is. -/
theorem Assembly.Bound.retains {a b : Assembly} (h : Bound a b) :
    a.database.Retains b.database where
  config := by rw [h.database]
  schemas := by
    apply Begins.of_paired
    apply List.Forall₂.flip
    apply h.schemas.imp
    intro s' s hs
    refine ⟨by rw [hs.same], .of_paired (List.Forall₂.flip (hs.tables.imp ?_))⟩
    intro t' t ht
    exact ⟨by rw [ht.same], ht.register⟩

/-! Looking up names in later versions. -/

/-- What a name finds among the fields of a table depends on its register. -/
theorem Table.findField?_eq_register (t : Table) (name : String) :
    (t.findField? name).map (·.id) = (t.register.2.find? (·.2 = name)).map (·.1) := by
  simp only [findField?, register, List.find?_map, Option.map_map, Function.comp_def]

namespace Database

variable {db db' : Database} {schema : Option String} {table : String} {t : Table}

theorem findTable_eq_ok_iff : db.findTable schema table = .ok (some t) ↔
    ∃ s, db.findSchema? (schema.getD db.config.defaultSchemaName) = some s ∧
      s.findTable? table = some t := by
  unfold findTable locate
  dsimp only
  split
  · rename_i hnone
    simp [hnone, Except.map]
  · rename_i s hs
    simp [hs, Except.map]

theorem Retains.findTable (h : db.Retains db') (ht : db.findTable schema table = .ok (some t)) :
    ∃ t', db'.findTable schema table = .ok (some t') ∧ t.Retains t' := by
  obtain ⟨s, hs, hst⟩ := findTable_eq_ok_iff.mp ht
  obtain ⟨s', hs', hschema⟩ := h.schemas.find? (fun _ _ hs => by rw [hs.info]) hs
  obtain ⟨t', ht', htable⟩ := hschema.tables.find? (fun _ _ ht => by rw [ht.info]) hst
  refine ⟨t', findTable_eq_ok_iff.mpr ⟨s', ?_, ht'⟩, htable⟩
  rw [h.config]
  exact hs'

theorem Retains.foundIn (h : db.Retains db') {e : Endpoint} (he : e.FoundIn db) :
    e.FoundIn db' := by
  obtain ⟨t, ht, hid, hfields⟩ := he
  obtain ⟨t', ht', hretains⟩ := h.findTable ht
  refine ⟨t', ht', (congrArg Prod.fst hretains.register).trans hid, ?_⟩
  apply hfields.imp
  intro i name hi
  rw [Table.findField?_eq_register, hretains.register, ← Table.findField?_eq_register]
  exact hi

end Database

/-! Endpoints are found as soon as they are there. -/

section Resolved

variable {db : Database} {token : Span}

theorem Endpoint.foundIn_of_resolve (hnamed : db.Named) {d : Decl.Endpoint} {e : Resolved}
    {v : Endpoint} (h : db.resolveEndpoint token d = .ok e) (hv : v.Of e) : v.FoundIn db := by
  obtain ⟨s, t, ids, htable, hfields, rfl⟩ := Database.resolveEndpoint_eq_ok h
  have hlocate := Database.locate_of_resolveTable htable
  obtain ⟨hs, ht⟩ := Database.mem_of_locate hlocate
  rw [Endpoint.FoundIn, hv.info, hv.table, hv.fields]
  refine ⟨t, ?_, rfl, ?_⟩
  · rw [Database.findTable, hlocate]
    rfl
  · apply (resolveFields_paired hfields).imp
    rintro i name ⟨f, hf, rfl, rfl⟩
    rw [Table.findField?, find?_of_nodup ((hnamed.distinct s hs).fields t ht) hf]
    rfl

theorem Ref.ResolvedIn.foundIn (hnamed : db.Named) {r : Ref} (h : r.ResolvedIn db) {e : Endpoint}
    (he : e ∈ r.endpoints) : e.FoundIn db := by
  obtain ⟨d, first, second, hres, -, -, hfirst, hsecond⟩ := h
  obtain ⟨e₁, e₂, -, h₁, h₂, -⟩ := Database.resolveRef_eq_ok hres
  rcases List.mem_cons.mp he with rfl | he
  · exact Endpoint.foundIn_of_resolve hnamed h₁ hfirst
  · rw [List.mem_singleton.mp he]
    exact Endpoint.foundIn_of_resolve hnamed h₂ hsecond

end Resolved

namespace Assembly

variable {m : Remit} {a b : Assembly}

/-- Refs are there from before, or they are resolved by what is there. -/
theorem Numbered.mem_refs_change (hn : a.Numbered) (h : Change m a b) {r : Ref}
    (hr : r ∈ b.database.refs) : r ∈ a.database.refs ∨ r.ResolvedIn a.database := by
  obtain ⟨s', hs', hr⟩ := List.mem_flatMap.mp hr
  cases hn.yields h hs' with
  | empty => cases hr
  | same hs => exact .inl (List.mem_flatMap.mpr ⟨_, hs, hr⟩)
  | @grown s e _ _ hs _ hfits =>
    have hmem : r ∈ s.refs ∨ e = .ref r := by
      cases e with
      | ref r' =>
        rcases List.mem_append.mp hr with hr | hr
        · exact .inl hr
        · exact .inr (by rw [List.mem_singleton.mp hr])
      | _ => exact .inl hr
    rcases hmem with hmem | rfl
    · exact .inl (List.mem_flatMap.mpr ⟨s, hs, hmem⟩)
    · exact .inr hfits.linked

theorem Steady.foundIn_change (h : a.Steady) (hab : Change m a b)
    (hfound : ∀ e ∈ a.database.endpoints, e.FoundIn a.database) :
    ∀ e ∈ b.database.endpoints, e.FoundIn b.database := by
  intro e he
  apply (h.grows_typed hab).1.retains.foundIn
  obtain ⟨r, hr, he⟩ := List.mem_flatMap.mp he
  rcases h.numbered.mem_refs_change hab hr with hold | hnew
  · exact hfound e (List.mem_flatMap.mpr ⟨r, hold, he⟩)
  · exact hnew.foundIn h.named he

theorem Bound.foundIn (hab : Bound a b)
    (hfound : ∀ e ∈ a.database.endpoints, e.FoundIn a.database) :
    ∀ e ∈ b.database.endpoints, e.FoundIn b.database := by
  have hrefs : b.database.refs = a.database.refs :=
    flatMap_eq_of_paired hab.schemas fun s' s hs => by rw [hs.same]
  intro e he
  rw [Database.endpoints, hrefs] at he
  exact hab.retains.foundIn (hfound e he)

/-- However many schemas, aliases, tables and fields have been added since it was resolved, each
endpoint is linked to what its names find now. -/
theorem Reachable.found_endpoints (h : a.Reachable) :
    ∀ e ∈ a.database.endpoints, e.FoundIn a.database := by
  have hboth : a.Steady ∧ ∀ e ∈ a.database.endpoints, e.FoundIn a.database := by
    apply h.keep (I := fun a => a.Steady ∧ ∀ e ∈ a.database.endpoints, e.FoundIn a.database)
    · exact fun c project => ⟨steady_start c project, fun _ he => absurd he List.not_mem_nil⟩
    · exact fun a b ha hab => ⟨ha.1.change hab, ha.1.foundIn_change hab ha.2⟩
    · exact fun a b ha hab => ⟨ha.1.binds hab, (ha.1.bound hab).foundIn ha.2⟩
  exact hboth.2

end Assembly

/-- A ref to a table by its alias. -/
def Decl.Bundle.visits : Decl.Bundle where
  tables := [
    { name := "users", aliasName := some "people", fields := [.ofType "id" "int"] },
    { name := "visits", fields := [.ofType "user" "int"] }]
  refs := [.between (.covering "visits" ["user"] .many) (.covering "people" ["id"] .one)]

/-- A table whose name is that alias comes too late to be found by it. -/
theorem Assembly.found_endpoints_visits : ∃ a, build .visits {} = .ok a ∧
    let b := a.after (.pushTable ⟨1⟩ { name := "people", fields := [.ofType "id" "int"] })
    b.Reachable ∧ (∀ e ∈ b.database.endpoints, e.FoundIn b.database) ∧
      b.database.endpoints.map (fun e => (e.tableName, e.table.toNat)) =
        [("visits", 2), ("people", 1)] ∧
      b.database.tables.map (fun t => (t.name, t.id.toNat)) =
        [("users", 1), ("visits", 2), ("people", 3)] := by
  have hbuilt : (build .visits {}).toOption.any (fun a =>
      let b := a.after (.pushTable ⟨1⟩ { name := "people", fields := [.ofType "id" "int"] })
      a.database.schemas.any (·.id = ⟨1⟩) &&
        decide (b.database.endpoints.map (fun e => (e.tableName, e.table.toNat)) =
            [("visits", 2), ("people", 1)] ∧
          b.database.tables.map (fun t => (t.name, t.id.toNat)) =
            [("users", 1), ("visits", 2), ("people", 3)])) = true := by
    decide +kernel
  obtain ⟨a, ha, heval⟩ := exists_ok_of_any hbuilt
  simp only [Bool.and_eq_true, List.any_eq_true, decide_eq_true_eq] at heval
  obtain ⟨hschema, hnames⟩ := heval
  have hreach : (a.after (.pushTable ⟨1⟩
      { name := "people", fields := [.ofType "id" "int"] })).Reachable :=
    .step (.build ha) hschema
  exact ⟨a, ha, hreach, hreach.found_endpoints, hnames⟩

end Catalog
