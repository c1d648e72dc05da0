import Catalog.Proofs.EnumLinks
import Catalog.Proofs.RefLinks.Grounded
import Catalog.Proofs.Reorder.Outline
import Catalog.Proofs.TagLinks

/-!
Links told by names. Databases that are built of the same records in another order differ in their
identifiers, so their links are compared by the names of what they lead from and to. Schemas that
come from the same declaration hold the same entities, under the same names and with the same
links.
-/
namespace Catalog

/-- A link from what a schema holds under some name. -/
structure NamedLink (α : Type) where
  schema : String
  name : String
  target : α
  deriving DecidableEq, Repr

namespace Database

/-- The links that the lists of entities stand for. A schema gives its entities by name, each with
its list. -/
def namedLinks {k : Kind} {α : Type} (db : Database) (paths : List (Id k × α))
    (lists : Schema → List (String × List (Id k))) : List (NamedLink α) :=
  db.schemas.flatMap fun s => (lists s).flatMap fun x =>
    (paths.filter (·.1 ∈ x.2)).map fun y => { schema := s.name, name := x.1, target := y.2 }

def enumLinks (db : Database) : List (NamedLink FieldPath) :=
  db.namedLinks db.fieldPaths fun s => s.enums.map fun e => (e.name, e.fields)

def tagLinks (db : Database) : List (NamedLink TablePath) :=
  db.namedLinks db.tablePaths fun s => s.tags.map fun g => (g.name, g.tables)

def memberships (db : Database) : List (NamedLink TablePath) :=
  db.namedLinks db.tablePaths fun s => s.tableGroups.map fun g => (g.name, g.tables)

/-- Where fields are, by name. -/
def pathSet (db : Database) (fields : Finset (Id .field)) : Finset FieldPath :=
  ((db.fieldPaths.filter (·.1 ∈ fields)).map (·.2)).toFinset

/-- The refs, each by its schema and the two sets of fields that it connects, in no order. -/
def refLinks (db : Database) : List (String × Sym2 (Finset FieldPath)) :=
  db.schemas.flatMap fun s => s.refs.map fun r => (s.name, r.sides.map db.pathSet)

variable {db db' : Database}

theorem mem_namedLinks {k : Kind} {α : Type} {paths : List (Id k × α)}
    {lists : Schema → List (String × List (Id k))} {l : NamedLink α} :
    l ∈ db.namedLinks paths lists ↔ ∃ s ∈ db.schemas, ∃ x ∈ lists s, ∃ i ∈ x.2,
      (i, l.target) ∈ paths ∧ l.schema = s.name ∧ l.name = x.1 := by
  simp only [namedLinks, List.mem_flatMap, List.mem_map, List.mem_filter, decide_eq_true_eq]
  constructor
  · rintro ⟨s, hs, x, hx, y, ⟨hy, hi⟩, rfl⟩
    exact ⟨s, hs, x, hx, y.1, hi, hy, rfl, rfl⟩
  · rintro ⟨s, hs, x, hx, i, hi, hy, hschema, hname⟩
    exact ⟨s, hs, x, hx, (i, l.target), ⟨hy, hi⟩, by rw [← hschema, ← hname]⟩

theorem mem_pathSet {fields : Finset (Id .field)} {p : FieldPath} :
    p ∈ db.pathSet fields ↔ ∃ i ∈ fields, (i, p) ∈ db.fieldPaths := by
  simp only [pathSet, List.mem_toFinset, List.mem_map, List.mem_filter, decide_eq_true_eq]
  constructor
  · rintro ⟨y, ⟨hy, hi⟩, rfl⟩
    exact ⟨y.1, hi, hy⟩
  · rintro ⟨i, hi, hp⟩
    exact ⟨(i, p), ⟨hp, hi⟩, rfl⟩

theorem mem_refLinks {l : String × Sym2 (Finset FieldPath)} :
    l ∈ db.refLinks ↔ ∃ s ∈ db.schemas, ∃ r ∈ s.refs, l = (s.name, r.sides.map db.pathSet) := by
  simp only [refLinks, List.mem_flatMap, List.mem_map, eq_comm]

end Database

/-! Schemas of the same declaration. -/

/-- Schemas of two databases come from the same declaration, but for the order of its records. -/
def Schema.Twins (db db' : Database) (c : Config) (o o' : Decl.Outline) (s s' : Schema) : Prop :=
  ∃ d d', d.Reorders d' ∧ s.Mirrors db c o d ∧ s'.Mirrors db' c o' d'

/-- What mirrors an element of one list has a counterpart where another order of the list is
mirrored. -/
theorem exists_twin_of_paired {α β γ : Type} {R : α → γ → Prop} {S : β → γ → Prop} {l : List α}
    {l' : List β} {m m' : List γ} (h : List.Forall₂ R l m) (hperm : m.Perm m')
    (h' : List.Forall₂ S l' m') {a : α} (ha : a ∈ l) : ∃ b ∈ l', ∃ x, R a x ∧ S b x := by
  obtain ⟨x, hx, hax⟩ := exists_right_of_paired h ha
  obtain ⟨b, hb, hbx⟩ := exists_left_of_paired h' (hperm.mem_iff.mp hx)
  exact ⟨b, hb, x, hax, hbx⟩

namespace Schema.Twins

variable {db db' : Database} {c : Config} {o o' : Decl.Outline} {s s' : Schema}

theorem name (h : s.Twins db db' c o o' s') : s'.name = s.name := by
  obtain ⟨d, d', hd, hs, hs'⟩ := h
  rw [hs.info, hs'.info, hd.info]

theorem exists_table (h : s.Twins db db' c o o' s') {t : Table} (ht : t ∈ s.tables) :
    ∃ t' ∈ s'.tables, t'.declared = t.declared := by
  obtain ⟨d, d', hd, hs, hs'⟩ := h
  have hperm : d.tables.Perm d'.tables := .of_eq hd.tables.symm
  obtain ⟨t', ht', e, he, he'⟩ := exists_twin_of_paired hs.tables hperm hs'.tables ht
  exact ⟨t', ht', he'.trans he.symm⟩

theorem exists_field (h : s.Twins db db' c o o' s') {t : Table} (ht : t ∈ s.tables) {f : Field}
    (hf : f ∈ t.fields) : ∃ t' ∈ s'.tables, t'.name = t.name ∧
      ∃ f' ∈ t'.fields, f'.toFieldInfo = f.toFieldInfo := by
  obtain ⟨t', ht', htwin⟩ := h.exists_table ht
  have hfields : t'.fields.map (·.declared) = t.fields.map (·.declared) :=
    congrArg (·.fields) htwin
  have hmem : f.declared ∈ t'.fields.map (·.declared) := hfields ▸ List.mem_map_of_mem hf
  obtain ⟨f', hf', hdeclared⟩ := List.mem_map.mp hmem
  exact ⟨t', ht', congrArg (·.name) htwin, f', hf', congrArg (·.toFieldInfo) hdeclared⟩

theorem exists_enum (h : s.Twins db db' c o o' s') {e : Enum} (he : e ∈ s.enums) :
    ∃ e' ∈ s'.enums, e'.declared = e.declared := by
  obtain ⟨d, d', hd, hs, hs'⟩ := h
  obtain ⟨e', he', x, hx, hx'⟩ := exists_twin_of_paired hs.enums hd.enums hs'.enums he
  exact ⟨e', he', hx'.trans hx.symm⟩

theorem exists_tag (h : s.Twins db db' c o o' s') {g : Tag} (hg : g ∈ s.tags) :
    ∃ g' ∈ s'.tags, g'.declared = g.declared := by
  obtain ⟨d, d', hd, hs, hs'⟩ := h
  obtain ⟨g', hg', x, hx, hx'⟩ := exists_twin_of_paired hs.tags hd.tags hs'.tags hg
  exact ⟨g', hg', hx'.trans hx.symm⟩

theorem exists_ref (h : s.Twins db db' c o o' s') {r : Ref} (hr : r ∈ s.refs) :
    ∃ r' ∈ s'.refs, ∃ d, r.Mirrors db c o d ∧ r'.Mirrors db' c o' d := by
  obtain ⟨d, d', hd, hs, hs'⟩ := h
  exact exists_twin_of_paired hs.refs hd.refs hs'.refs hr

theorem exists_tableGroup (h : s.Twins db db' c o o' s') {g : TableGroup}
    (hg : g ∈ s.tableGroups) :
    ∃ g' ∈ s'.tableGroups, ∃ d, g.Mirrors db c o d ∧ g'.Mirrors db' c o' d := by
  obtain ⟨d, d', hd, hs, hs'⟩ := h
  exact exists_twin_of_paired hs.tableGroups hd.tableGroups hs'.tableGroups hg

end Schema.Twins

namespace Assembly.Mirrors

variable {c : Config} {project project' : DatabaseInfo} {x x' : Decl.Stage} {a a' : Assembly}

theorem exists_twin (h : a.Mirrors c project x) (h' : a'.Mirrors c project' x')
    (ho : x.outline.Reorders x'.outline) {s : Schema} (hs : s ∈ a.database.schemas) :
    ∃ s' ∈ a'.database.schemas,
      s.Twins a.database a'.database c x.outline x'.outline s' := by
  obtain ⟨d, hd, hsd⟩ := exists_right_of_paired h.schemas hs
  obtain ⟨d', hd', hdd'⟩ := ho.exists_right hd
  obtain ⟨s', hs', hsd'⟩ := exists_left_of_paired h'.schemas hd'
  exact ⟨s', hs', d, d', hdd', hsd, hsd'⟩

/-! The names of what is listed are found in the outline. -/

theorem mem_tables_iff (h : a.Mirrors c project x) {g : TableGroup} {d : Decl.TableGroup}
    (hg : g.Mirrors a.database c x.outline d) {p : TablePath} :
    (∃ i ∈ g.tables, (i, p) ∈ a.database.tablePaths) ↔ p ∈ x.outline.members c d := by
  constructor
  · rintro ⟨i, hi, hp⟩
    obtain ⟨p', hp', hip'⟩ := exists_right_of_paired hg.tables hi
    rw [(h.tablePath_eq_iff hp hip').mp rfl]
    exact hp'
  · intro hp
    exact exists_left_of_paired hg.tables hp

theorem mem_pathSet_iff (h : a.Mirrors c project x) {e : Endpoint} {d : Decl.Endpoint}
    (he : e.Mirrors a.database c x.outline d) {p : FieldPath} :
    p ∈ a.database.pathSet e.fieldSet ↔ some p ∈ x.outline.cover c d.toEndpointInfo := by
  simp only [Database.mem_pathSet, Endpoint.fieldSet, List.mem_toFinset, Decl.Outline.cover,
    List.mem_map]
  constructor
  · rintro ⟨i, hi, hp⟩
    obtain ⟨name, hname, p', hp', hip'⟩ := exists_right_of_paired he.fields hi
    rw [(h.fieldPath_eq_iff hp hip').mp rfl]
    exact ⟨name, hname, hp'⟩
  · rintro ⟨name, hname, hp⟩
    obtain ⟨i, hi, p', hp', hip'⟩ := exists_left_of_paired he.fields hname
    obtain rfl : p' = p := Option.some.inj (hp'.symm.trans hp)
    exact ⟨i, hi, hip'⟩

section Transfer

variable (h : a.Mirrors c project x) (h' : a'.Mirrors c project' x')
  (ho : x.outline.Reorders x'.outline)

include h h' ho

theorem memberships_subset : a.database.memberships ⊆ a'.database.memberships := by
  intro l hl
  obtain ⟨s, hs, y, hy, i, hi, hp, hschema, hname⟩ := Database.mem_namedLinks.mp hl
  obtain ⟨g, hg, rfl⟩ := List.mem_map.mp hy
  obtain ⟨s', hs', htwins⟩ := h.exists_twin h' ho hs
  obtain ⟨g', hg', d, hgd, hgd'⟩ := htwins.exists_tableGroup hg
  have hmem := (h.mem_tables_iff hgd).mp ⟨i, hi, hp⟩
  rw [(ho.alike h.sound.apart).members_eq] at hmem
  obtain ⟨i', hi', hp'⟩ := (h'.mem_tables_iff hgd').mpr hmem
  have hname' : g'.name = g.name := by rw [hgd.info, hgd'.info]
  exact Database.mem_namedLinks.mpr ⟨s', hs', _, List.mem_map.mpr ⟨g', hg', rfl⟩, i', hi', hp',
    hschema.trans htwins.name.symm, hname.trans hname'.symm⟩

theorem pathSet_eq {e e' : Endpoint} {d : Decl.Endpoint}
    (he : e.Mirrors a.database c x.outline d) (he' : e'.Mirrors a'.database c x'.outline d) :
    a.database.pathSet e.fieldSet = a'.database.pathSet e'.fieldSet := by
  ext p
  rw [h.mem_pathSet_iff he, h'.mem_pathSet_iff he', (ho.alike h.sound.apart).cover_eq]

theorem refLinks_subset : a.database.refLinks ⊆ a'.database.refLinks := by
  intro l hl
  obtain ⟨s, hs, r, hr, rfl⟩ := Database.mem_refLinks.mp hl
  obtain ⟨s', hs', htwins⟩ := h.exists_twin h' ho hs
  obtain ⟨r', hr', d, hrd, hrd'⟩ := htwins.exists_ref hr
  have hsides : r.sides.map a.database.pathSet = r'.sides.map a'.database.pathSet := by
    obtain ⟨e₁, ends, hfirst, hrest, hends⟩ := List.forall₂_cons_left_iff.mp hrd.endpoints
    obtain ⟨e₂, rest, hsecond, -, rfl⟩ := List.forall₂_cons_left_iff.mp hrest
    have hends' := hrd'.endpoints
    rw [hends] at hends'
    obtain ⟨hfirst', hrest'⟩ := List.forall₂_cons.mp hends'
    obtain ⟨hsecond', -⟩ := List.forall₂_cons.mp hrest'
    rw [Ref.sides, Ref.sides, Sym2.map_mk, Sym2.map_mk, pathSet_eq h h' ho hfirst hfirst',
      pathSet_eq h h' ho hsecond hsecond']
  rw [hsides, ← htwins.name]
  exact Database.mem_refLinks.mpr ⟨s', hs', r', hr', rfl⟩

/-- What a tag lists is told by its name. -/
theorem tagLinks_subset (hlisted : ∀ s ∈ a.database.schemas, s.Listed)
    (hlisted' : ∀ s ∈ a'.database.schemas, s.Listed) :
    a.database.tagLinks ⊆ a'.database.tagLinks := by
  intro l hl
  obtain ⟨s, hs, y, hy, i, hi, hp, hschema, hname⟩ := Database.mem_namedLinks.mp hl
  obtain ⟨g, hg, rfl⟩ := List.mem_map.mp hy
  obtain ⟨s', hs', htwins⟩ := h.exists_twin h' ho hs
  obtain ⟨g', hg', hdeclared⟩ := htwins.exists_tag hg
  have hname' : g'.name = g.name := congrArg (·.name) hdeclared
  rw [hlisted s hs g hg] at hi
  obtain ⟨t, ht, rfl⟩ := List.mem_map.mp hi
  obtain ⟨ht, htagged⟩ := List.mem_filter.mp ht
  obtain ⟨t', ht', htwin⟩ := htwins.exists_table ht
  have hmentions : t'.mentions = t.mentions := congrArg (·.tags) htwin
  have hi' : t'.id ∈ g'.tables := by
    rw [hlisted' s' hs' g' hg']
    refine List.mem_map.mpr ⟨t', List.mem_filter.mpr ⟨ht', ?_⟩, rfl⟩
    rw [Table.isTagged, hmentions, hname']
    exact htagged
  have htable : t'.name = t.name := congrArg (·.name) htwin
  have hpath : l.target = ⟨s'.name, t'.name⟩ := by
    rw [htwins.name, htable]
    exact (h.tablePath_eq_iff hp (Database.mem_tablePaths.mpr ⟨s, hs, t, ht, rfl, rfl⟩)).mp rfl
  exact Database.mem_namedLinks.mpr ⟨s', hs', _, List.mem_map.mpr ⟨g', hg', rfl⟩, t'.id, hi',
    Database.mem_tablePaths.mpr ⟨s', hs', t', ht', rfl, hpath⟩,
    hschema.trans htwins.name.symm, hname.trans hname'.symm⟩

end Transfer

end Assembly.Mirrors

end Catalog
