import Catalog.Proofs.Aliases.Rerun
import Catalog.Proofs.EnumPolicy.Outputs
import Catalog.Proofs.Flattening.Filed
import Catalog.Proofs.Validity

/-!
Names of one schema are interchangeable. A bundle that names declared schemas by other names of
theirs is rejected for the same reason at the same place, or makes the same flat model, in which
endpoints say what they were declared with.
-/
namespace Catalog

namespace Decl.Bundle

/-- What the endpoints of a bundle say, in the order in which they are numbered. -/
def statement (b : Bundle) (c : Config) : Statement :=
  fun i => b.endpoints[i.toNat - c.idBase.toNat]?.elim default (·.toEndpointInfo)

theorem tells_statement (b : Bundle) (c : Config) :
    (b.statement c).Tells c.idBase.toNat b.endpoints := by
  intro k e he i hi
  rw [statement, hi, Nat.add_sub_cancel_left, he]
  rfl

variable {b b' : Bundle}

/-- Endpoint by endpoint, one bundle says the same as the other but for the names of schemas. -/
theorem Respells.endpoints (h : b.Respells b') :
    List.Forall₂ (Endpoint.Respells b) b.endpoints b'.endpoints := by
  have hrefs : List.Forall₂ (fun d d' : Ref =>
      List.Forall₂ (Endpoint.Respells b) d.endpoints d'.endpoints) b.allRefs b'.allRefs := by
    apply paired_append
    · apply List.rel_flatMap h.schemas
      rintro s _ ⟨rs, gs, hrs, -, rfl⟩
      apply hrs.imp
      rintro d _ ⟨es, hes, rfl⟩
      exact hes
    · apply h.refs.imp
      rintro d _ ⟨_, ⟨es, hes, rfl⟩, _, -, rfl⟩
      exact hes
  exact List.rel_flatMap hrefs fun _ _ h => h

end Decl.Bundle

/-! Builds. -/

namespace Assembly

variable {b b' : Decl.Bundle} {c : Config}

theorem build_eq_outcome (b : Decl.Bundle) (c : Config) :
    build b c = ((addBundle b).outcome (start c b.project)).map (·.2) := by
  unfold build Attempt.outcome
  rcases (addBundle b).run (start c b.project) with ⟨r | _, a⟩ <;> rfl

/-- Two bundles that name the same schemas come to one verdict, and to the same assembly but for
what endpoints say; each of these has the number of its place. -/
theorem build_respelled (apart : b.schemas.Pairwise Decl.Schema.Apart) (h : b.Respells b') :
    SameVerdict (fun a a' => a' = a.restate (b'.statement c) ∧
        (a.database.numbers .endpoint).Perm (List.range' c.idBase.toNat b'.endpoints.length) ∧
        ∀ k, (a.database.arena k).Nodup)
      (build b c) (build b' c) := by
  have hinfos : b.infos = b'.infos := by
    apply map_eq_of_paired h.schemas
    rintro s _ ⟨rs, gs, -, -, rfl⟩
    rfl
  have hrun := retraces_addBundle apart (b'.tells_statement c) h {} (start c b.project)
    (follows_start c b.project) ⟨rfl, hinfos.symm, [], rfl, rfl⟩
  rw [build_eq_outcome, build_eq_outcome, h.project]
  apply hrun.map
  rintro ⟨_, a⟩ ⟨_, _⟩ ⟨rfl, y, hy, done, heq, hlen⟩
  rw [List.append_nil] at heq
  have hnumbers := hy.mirrors.numbers .endpoint
  rw [hlen, ← heq] at hnumbers
  exact ⟨rfl, hnumbers, fun k => Database.nodup_arena (hy.mirrors.nodup_numbers k)⟩

end Assembly

/-! Flat models. -/

/-- A flat model is another one but for the schemas that endpoints name. Where these name what the
endpoints of one declaration do, each in its place from `base` on, they come to name what those of
the other declaration do. -/
structure Flat.Model.Renames (base : Nat) (es es' : List Decl.Endpoint) (m m' : Model) : Prop where
  same : m' = { m with endpoints := m'.endpoints }
  ids : m'.endpoints.ids = m.endpoints.ids
  endpoints : ∀ i e, m.endpoints.get? i = some e → ∃ k d d', i.toNat = base + k ∧
    es[k]? = some d ∧ es'[k]? = some d' ∧ e.schemaName = d.schemaName ∧
    m'.endpoints.get? i = some { e with schemaName := d'.schemaName }

def Flat.Endpoint.restate (σ : Statement) (e : Endpoint) : Endpoint :=
  { e with toEndpointInfo := σ e.id }

theorem Bucket.ids_map {k : Kind} {α β : Type} (b : Bucket k α) (f : α → β) :
    (b.map f).ids = b.ids := by
  simp only [ids, map, List.map_map, Function.comp_def]

variable (σ : Statement)

theorem Schema.flat_restate (owner : Id .database) (s : Schema) :
    (s.restate σ).flat owner = s.flat owner := by
  simp only [flat, restate, List.map_map]
  rfl

namespace Database

variable (db : Database)

theorem flat_restate : (db.restate σ).flat = db.flat := by
  simp only [flat, restate, List.map_map]
  rfl

theorem normalize_restate : (db.restate σ).normalize =
    { db.normalize with endpoints := db.normalize.endpoints.map (·.restate σ) } := by
  have hschemas : (db.restate σ).schemas = db.schemas.map (·.restate σ) := rfl
  simp only [normalize, Bucket.map_ofList, flat_restate, tables_restate, refs_restate,
    enums_restate, indexes_restate, hschemas, List.map_map, List.flatMap_map, List.map_flatMap,
    Function.comp_def, Schema.flat_restate]
  simp only [Schema.restate, List.map_map]
  rfl

variable {db σ} {b b' : Decl.Bundle} {c : Config}

/-- The endpoints of a database that says what its bundle does are made to say what another bundle
does. -/
theorem renames_restate (hself : db.restate (b.statement c) = db)
    (hnumbers : (db.numbers .endpoint).Perm (List.range' c.idBase.toNat b.endpoints.length))
    (hn : (db.arena .endpoint).Nodup)
    (hes : List.Forall₂ (Decl.Endpoint.Respells b) b.endpoints b'.endpoints) :
    db.normalize.Renames c.idBase.toNat b.endpoints b'.endpoints
      (db.restate (b'.statement c)).normalize where
  same := by
    rw [normalize_restate]
  ids := by
    rw [normalize_restate]
    exact Bucket.ids_map _ _
  endpoints := by
    intro i e he
    -- The database does not change when it is made to say what it says already, nor does a record.
    have hsays : e.restate (b.statement c) = e := by
      have hmap := congrArg (·.normalize.endpoints.get? i) hself
      simp only [normalize_restate, Bucket.get?_map, he, Option.map_some] at hmap
      exact Option.some.inj hmap
    have hid : i = e.id ∧ i ∈ db.arena .endpoint := by
      obtain ⟨r, hr, e', he', rfl, rfl⟩ := (Bucket.get?_children hn).mp he
      refine ⟨rfl, ?_⟩
      exact List.mem_map.mpr ⟨e', List.mem_flatMap.mpr ⟨r, hr, he'⟩, rfl⟩
    obtain ⟨rfl, hmem⟩ := hid
    rw [mem_arena, hnumbers.mem_iff, List.mem_range'_1] at hmem
    obtain ⟨k, hk⟩ := Nat.exists_eq_add_of_le hmem.1
    have hlt : k < b.endpoints.length := by omega
    have hd := List.getElem?_eq_getElem hlt
    obtain ⟨d', hd', name, -, heq⟩ := getElem?_of_paired hes hd
    have htold := b.tells_statement c k _ hd e.id hk
    have htold' := b'.tells_statement c k _ hd' e.id hk
    have hinfo : e.toEndpointInfo = b.endpoints[k].toEndpointInfo := by
      rw [← hsays, ← htold]
      rfl
    refine ⟨k, _, d', hk, hd, hd', congrArg (·.schemaName) hinfo, ?_⟩
    rw [normalize_restate]
    dsimp only
    rw [Bucket.get?_map, he, Option.map_some, Flat.Endpoint.restate, htold', heq, hinfo]

end Database

/-- Naming declared schemas by other names of theirs changes neither why and where a bundle is
rejected nor what is made of it, but for the names that endpoints keep for display. -/
theorem Database.transparent_aliases (b b' : Decl.Bundle) (c : Config)
    (apart : b.schemas.Pairwise Decl.Schema.Apart) (h : b.Respells b') :
    (∃ r r', build b c = .error r ∧ build b' c = .error r' ∧ r'.kind = r.kind ∧
      r'.span = r.span) ∨
    ∃ db db', build b c = .ok db ∧ build b' c = .ok db' ∧
      db.normalize.Renames c.idBase.toNat b.endpoints b'.endpoints db'.normalize := by
  have hverdict := Assembly.build_respelled (c := c) apart h
  have hself := Assembly.build_respelled (c := c) apart (.refl b)
  unfold build
  generalize Assembly.build b c = x at hverdict hself
  generalize Assembly.build b' c = y at hverdict
  cases hverdict with
  | @error r r' hkind hspan => exact .inl ⟨r, r', rfl, rfl, hkind, hspan⟩
  | @ok a a' hok =>
    obtain ⟨rfl, -, hn⟩ := hok
    cases hself with
    | ok hself =>
      obtain ⟨heq, hnumbers, -⟩ := hself
      refine .inr ⟨a.database, _, rfl, rfl, ?_⟩
      exact renames_restate (congrArg (·.database) heq).symm hnumbers (hn .endpoint) h.endpoints

/-- Two schemas with aliases. A table, an endpoint and a member of a group are for the first one, by
whichever of its names. -/
def Decl.Bundle.depots (name : String) : Decl.Bundle where
  schemas := [
    { name := "north", aliasName := some "n",
      tables := [{ name := "docks", fields := [.ofType "id" "int"] }] },
    { name := "south", aliasName := some "s" }]
  tables := [{ name := "cranes", schemaName := some name, fields := [.ofType "dock" "int"] }]
  refs := [.between
    ((Decl.Endpoint.covering "cranes" ["dock"] .many).inSchema name)
    ((Decl.Endpoint.covering "docks" ["id"] .one).inSchema "north")]
  tableGroups := [{ name := "yard", tables := [{ name := "cranes", schemaName := some name }] }]

theorem Decl.Bundle.respells_depots : (depots "north").Respells (depots "n") := by
  have hsame : (depots "north").SameSchema (some "north") (some "n") :=
    .names List.mem_cons_self (by decide) (by decide)
  have hrefl := Respells.refl (depots "north")
  exact {
    schemas := hrefl.schemas
    tables := .cons ⟨_, hsame, rfl⟩ .nil
    tags := .nil
    enums := .nil
    refs := .cons ⟨_, ⟨_, .cons ⟨_, hsame, rfl⟩ (.cons ⟨_, .same _, rfl⟩ .nil), rfl⟩,
      _, .same _, rfl⟩ .nil
    tableGroups := .cons ⟨_, ⟨_, .cons ⟨_, hsame, rfl⟩ .nil, rfl⟩, _, .same _, rfl⟩ .nil
    project := rfl }

/-- By its alias, the table gets to the declared schema, and what is linked to it stays so. -/
theorem Database.transparent_aliases_depots : ∃ db db',
    build (.depots "north") {} = .ok db ∧ build (.depots "n") {} = .ok db' ∧
    db.normalize.Renames (Config.idBase {}).toNat (Decl.Bundle.depots "north").endpoints
      (Decl.Bundle.depots "n").endpoints db'.normalize ∧
    db'.schemas.map (·.tables.map (·.name)) = [["docks", "cranes"], [], []] ∧
    db.endpoints.map (·.schemaName) = [some "north", some "north"] ∧
    db'.endpoints.map (·.schemaName) = [some "n", some "north"] := by
  have hbuilt : (build (.depots "north") {}).toOption.any (fun db => decide (
      db.endpoints.map (·.schemaName) = [some "north", some "north"])) = true := by
    decide +kernel
  have hbuilt' : (build (.depots "n") {}).toOption.any (fun db => decide (
      db.schemas.map (·.tables.map (·.name)) = [["docks", "cranes"], [], []] ∧
      db.endpoints.map (·.schemaName) = [some "n", some "north"])) = true := by
    decide +kernel
  obtain ⟨db, hdb, hsays⟩ := exists_build_of_any hbuilt
  obtain ⟨db', hdb', heval⟩ := exists_build_of_any hbuilt'
  obtain ⟨htables, hsays'⟩ := of_decide_eq_true heval
  refine ⟨db, db', hdb, hdb', ?_, htables, of_decide_eq_true hsays, hsays'⟩
  have apart : (Decl.Bundle.depots "north").schemas.Pairwise Decl.Schema.Apart := by
    obtain ⟨a, ha, -⟩ := build_eq_ok_iff.mp hdb
    exact Decl.Bundle.apart_of_sound (Assembly.follows_of_build ha).2.mirrors.sound
  rcases transparent_aliases (.depots "north") (.depots "n") {} apart
    Decl.Bundle.respells_depots with ⟨r, _, hr, -⟩ | ⟨_, _, h, h', hrenames⟩
  · cases hdb.symm.trans hr
  · cases hdb.symm.trans h
    cases hdb'.symm.trans h'
    exact hrenames

end Catalog
