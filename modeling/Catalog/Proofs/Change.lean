import Catalog.Operation
import Catalog.Proofs.Mirror.Insert
import Mathlib.Logic.Relation

/-!
What construction can do to an assembly, change by change. A rejected record costs identifiers and
nothing else. An accepted one becomes an entity that fits into its schema, under the identifiers
that come next. What every change keeps holds wherever construction leads.
-/
namespace Catalog

/-- The numbers are those that came next, and they have been issued. -/
def Allocator.Supplies (a a' : Allocator) (ns : Kind → List Nat) : Prop :=
  ∃ need, a.Drew a' need ∧ ∀ k, ns k = List.range' (a.next k) (need k)

namespace Allocator.Supplies

variable {a a' : Allocator} {ns : Kind → List Nat}

theorem precedes (h : a.Supplies a' ns) : a.Precedes a' := by
  obtain ⟨need, hdrew, -⟩ := h
  exact hdrew.precedes

theorem nodup (h : a.Supplies a' ns) (k : Kind) : (ns k).Nodup := by
  obtain ⟨need, -, hns⟩ := h
  rw [hns k]
  exact List.nodup_range'

theorem mem_bounds (h : a.Supplies a' ns) {k : Kind} {n : Nat} (hn : n ∈ ns k) :
    a.next k ≤ n ∧ n < a'.next k := by
  obtain ⟨need, hdrew, hns⟩ := h
  rw [hns k, List.mem_range'_1] at hn
  rw [hdrew.next k]
  exact hn

end Allocator.Supplies

/-- A ref between endpoints that a database resolves. -/
def Ref.ResolvedIn (r : Ref) (db : Database) : Prop :=
  ∃ (d : Decl.Ref) (first second : Resolved), db.resolveRef d = .ok (first, second) ∧
    r.toRefInfo = d.toRefInfo ∧ r.token = d.token ∧ r.first.Of first ∧ r.second.Of second

/-- A group of tables that a database finds for its members, none of which is in a group. -/
def TableGroup.ResolvedIn (g : TableGroup) (db : Database) : Prop :=
  ∃ (d : Decl.TableGroup) (tables : List Table),
    db.resolveMembers d.token [] d.tables = .ok tables ∧
      g.toTableGroupInfo = d.toTableGroupInfo ∧ g.token = d.token ∧
        g.tables = tables.map (·.id) ∧ Database.firstGrouped? tables = none

/-- The names that an entity takes in its schema. -/
def Entity.labels : Entity → ChildSort → List String
  | .table t, .table => [t.name]
  | .tag t, .tag => [t.name]
  | .enum e, .enum => [e.name]
  | .tableGroup g, .tableGroup => [g.name]
  | _, _ => []

/-- The fields of a table have different names, as have the values of an enum. -/
def Entity.Distinct : Entity → Prop
  | .table t => (t.fields.map (·.name)).Nodup
  | .enum e => (e.values.map (·.name)).Nodup
  | _ => True

/-- Refs and groups are linked to what a database resolves, others to nothing yet. -/
def Entity.LinkedIn (db : Database) : Entity → Prop
  | .table t => t.Unlinked
  | .tag t => t.tables = []
  | .enum e => e.fields = []
  | .ref r => r.ResolvedIn db
  | .tableGroup g => g.ResolvedIn db

/-- An entity has passed the checks of the schema that it is for. -/
structure Entity.Fits (db : Database) (s : Schema) (e : Entity) : Prop where
  labels : ∀ sort, ∀ name ∈ e.labels sort, name ∉ s.names sort
  distinct : e.Distinct
  linked : e.LinkedIn db
  unmatched : ∀ r, e = .ref r → ∀ other ∈ s.refs, r.connectsSame other = false

theorem Entity.Fits.of_label {db : Database} {s : Schema} {e : Entity} {sort : ChildSort}
    {name : String} (hlabels : ∀ sort', e.labels sort' = if sort' = sort then [name] else [])
    (hnew : name ∉ s.names sort) (hdistinct : e.Distinct) (hlinked : e.LinkedIn db) :
    e.Fits db s where
  labels := by
    intro sort' name' hname'
    rw [hlabels] at hname'
    split at hname'
    · rename_i hsort
      rw [List.mem_singleton.mp hname', hsort]
      exact hnew
    · cases hname'
  distinct := hdistinct
  linked := hlinked
  unmatched := by
    rintro r rfl
    have hnone := hlabels sort
    rw [if_pos rfl] at hnone
    cases hnone

/-- Makes an entity part of a schema and draws the links that come with it. -/
def Database.commit (db : Database) (id : Id .schema) : Entity → Database
  | .table t => db.addTable id t
  | .tag t => db.addTag id t
  | .enum e => db.addEnum id e
  | .ref r => db.addRef id r
  | .tableGroup g => db.addTableGroup id g

/-- An entity is placed, and an enum may be bound then. -/
theorem Database.commit_cases (db : Database) (id : Id .schema) (e : Entity) :
    (∀ en, e = .enum en → db.config.enumBinding = .afterConstruction) ∧
        db.commit id e = db.place id e ∨
      ∃ en, e = .enum en ∧ db.config.enumBinding = .onInsert ∧
        db.commit id e = (db.place id e).bindEnum en.id := by
  have unlinked : (db.relink (fun t => t) fun e => e) = db := db.relink_self
  cases e with
  | table t =>
    refine .inl ⟨nofun, ?_⟩
    change db.addTable id t = (db.relink (fun t => t) fun e => e).updateSchema id _
    rw [unlinked]
    rfl
  | tag t =>
    refine .inl ⟨nofun, ?_⟩
    change db.addTag id t = (db.relink (fun t => t) fun e => e).updateSchema id _
    rw [unlinked]
    rfl
  | ref r => exact .inl ⟨nofun, db.addRef_eq id r⟩
  | tableGroup g => exact .inl ⟨nofun, db.addTableGroup_eq id g⟩
  | enum en =>
    have hplace : db.place id (.enum en) = db.updateSchema id (·.insert (.enum en)) := by
      change (db.relink (fun t => t) fun e => e).updateSchema id _ = _
      rw [unlinked]
    rw [hplace]
    rcases db.addEnum_cases id en with ⟨hbinding, heq⟩ | ⟨hbinding, heq⟩
    · exact .inl ⟨fun _ _ => hbinding, heq⟩
    · exact .inr ⟨en, rfl, hbinding, heq⟩

def Entity.kind : Entity → Kind
  | table _ => .table
  | tag _ => .tag
  | enum _ => .enum
  | ref _ => .ref
  | tableGroup _ => .tableGroup

/-- What changes may do: add schemas, insert some entities into some schemas, and bind enums other
than those being inserted. -/
structure Remit where
  opens : Prop := False
  inserts : Schema → Entity → Prop := fun _ _ => False
  binds : Prop := False

namespace Remit

def full : Remit where
  opens := True
  inserts _ _ := True
  binds := True

/-- Schemas, but no entities. -/
def opening : Remit where
  opens := True

def binding : Remit where
  binds := True

/-- Anything but tables and tags. -/
def linking : Remit where
  opens := True
  inserts _ e := e.kind ≠ .table ∧ e.kind ≠ .tag
  binds := True

/-- Entities of some kind, in any schema. -/
def of (k : Kind) : Remit where
  opens := True
  inserts _ e := e.kind = k

/-- Entities of some kind, in one schema. -/
def into (id : Id .schema) (k : Kind) : Remit where
  inserts s e := s.id = id ∧ e.kind = k

/-- One remit is part of another. -/
structure Within (m m' : Remit) : Prop where
  opens : m.opens → m'.opens
  inserts : ∀ s e, m.inserts s e → m'.inserts s e
  binds : m.binds → m'.binds

theorem within_full (m : Remit) : m.Within full :=
  ⟨fun _ => trivial, fun _ _ _ => trivial, fun _ => trivial⟩

theorem of_within_linking {k : Kind} (hk : k ≠ .table ∧ k ≠ .tag) : (of k).Within linking where
  opens h := h
  inserts _ e := by
    rintro (rfl : e.kind = k)
    exact hk
  binds h := h.elim

theorem binding_within_linking : binding.Within linking :=
  ⟨fun h => h.elim, fun _ _ h => h.elim, fun h => h⟩

theorem opening_within (k : Kind) : opening.Within (of k) :=
  ⟨fun h => h, fun _ _ h => h.elim, fun h => h⟩

theorem into_within (id : Id .schema) (k : Kind) : (into id k).Within (of k) :=
  ⟨fun _ => trivial, fun _ _ h => h.2, fun h => h⟩

end Remit

namespace Assembly

/-- Nothing has happened except that identifiers were taken. -/
structure Spent (a a' : Assembly) : Prop where
  database : a'.database = a.database
  ids : a.ids.Precedes a'.ids

/-- An empty schema that shares no name with another one has been added. -/
structure Opens (a : Assembly) (s : Schema) (a' : Assembly) : Prop where
  empty : s = { toSchemaInfo := s.toSchemaInfo, id := s.id, token := s.token }
  apart : ∀ t ∈ a.database.schemas, t.collides s.toSchemaInfo = false
  ids : a.ids.Supplies a'.ids s.id.number
  database : a'.database = a.database.addSchema s

/-- An entity that fits into a schema has become part of it. -/
structure Inserts (a : Assembly) (s : Schema) (e : Entity) (a' : Assembly) : Prop where
  schema : s ∈ a.database.schemas
  fits : e.Fits a.database s
  ids : a.ids.Supplies a'.ids e.numbers
  database : a'.database = a.database.commit s.id e

/-- A change within a remit. -/
inductive Change (m : Remit) (a : Assembly) : Assembly → Prop
  | spend {a' : Assembly} : a.Spent a' → Change m a a'
  | mark : Change m a ⟨a.database.markDefault, a.ids⟩
  | opens {s : Schema} {a' : Assembly} (h : a.Opens s a') (hm : m.opens) : Change m a a'
  | inserts {s : Schema} {e : Entity} {a' : Assembly} (h : a.Inserts s e a')
      (hm : m.inserts s e) : Change m a a'
  | bindEnum (i : Id .enum) (hm : m.binds) : Change m a ⟨a.database.bindEnum i, a.ids⟩

/-- One change after another. -/
abbrev Changes (m : Remit) : Assembly → Assembly → Prop :=
  Relation.ReflTransGen (Change m)

theorem Change.mono {m m' : Remit} {a b : Assembly} (h : Change m a b) (hm : m.Within m') :
    Change m' a b := by
  cases h with
  | spend h => exact .spend h
  | mark => exact .mark
  | opens h ho => exact .opens h (hm.opens ho)
  | inserts h hi => exact .inserts h (hm.inserts _ _ hi)
  | bindEnum i hb => exact .bindEnum i (hm.binds hb)

theorem Changes.mono {m m' : Remit} {a b : Assembly} (h : Changes m a b) (hm : m.Within m') :
    Changes m' a b :=
  Relation.ReflTransGen.mono (fun _ _ hab => Change.mono hab hm) _ _ h

/-- What every change keeps is kept by all of them together. -/
theorem Changes.keep {m : Remit} {I : Assembly → Prop} {a a' : Assembly} (h : Changes m a a')
    (hstep : ∀ b b', I b → Change m b b' → I b') (ha : I a) : I a' := by
  induction h with
  | refl => exact ha
  | tail _ hb ih => exact hstep _ _ ih hb

variable {a b : Assembly} {s : Schema} {e : Entity}

theorem mem_schemas_schema? {db : Database} {id : Id .schema} (h : db.schema? id = some s) :
    s ∈ db.schemas ∧ s.id = id :=
  have hid := List.find?_some (p := fun s : Schema => decide (s.id = id)) h
  ⟨List.mem_of_find?_eq_some h, of_decide_eq_true hid⟩

/-- An insertion of what is drafted for a schema that exists inserts the entity or is spent. -/
theorem meets_insert_of_fits {δ : Type} {draft : Database → Drafting δ}
    {commit : Database → δ → Database} {n : Kind → Nat} {R : δ → (Kind → List Nat) → Prop}
    {Q : Rejection → Prop} {id : Id .schema} (entity : δ → Entity)
    (hs : a.database.schema? id = some s) (hdraws : Draws (draft a.database) n R Q)
    (hR : ∀ v ns, R v ns → (entity v).Fits a.database s ∧ ∀ k, (entity v).numbers k = ns k)
    (hcommit : ∀ v, commit a.database v = a.database.commit id (entity v)) :
    (insert draft commit).Meets a (fun v b => a.Inserts s (entity v) b) (fun _ b => a.Spent b) := by
  obtain ⟨hmem, hid⟩ := mem_schemas_schema? hs
  apply Assembly.meets_insert
  apply (hdraws a.ids).mono
  · rintro v ids ⟨hdrew, hv⟩
    obtain ⟨hfits, hnumbers⟩ := hR _ _ hv
    exact ⟨hmem, hfits, ⟨n, hdrew, hnumbers⟩, by rw [hcommit, hid]⟩
  · rintro r ids ⟨hle, -⟩
    exact ⟨rfl, hle⟩

end Assembly

end Catalog
