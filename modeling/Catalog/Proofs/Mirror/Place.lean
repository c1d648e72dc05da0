import Catalog.Proofs.Drafting
import Catalog.Proofs.Mirror

/-!
Changes that keep the mirror: an entity is inserted where its record is placed.
-/
namespace Catalog

variable {db db' : Database} {c : Config} {o o' : Decl.Outline} {project : DatabaseInfo}
  {x : Decl.Stage} {a : Assembly}

/-- Tables and fields are where they were. -/
structure Database.Keeps (db db' : Database) : Prop where
  tables : db.tablePaths ⊆ db'.tablePaths
  fields : db.fieldPaths ⊆ db'.fieldPaths

theorem Endpoint.Mirrors.mono {e : Endpoint} {d : Decl.Endpoint} (h : e.Mirrors db c o d)
    (hdb : db.Keeps db') (hg : o.Grows o') : e.Mirrors db' c o' d where
  info := h.info
  token := h.token
  table := by
    obtain ⟨p, hp, hmem⟩ := h.table
    exact ⟨p, hg.tablePath? hp, hdb.tables hmem⟩
  fields := by
    apply h.fields.imp
    rintro f name ⟨p, hp, hmem⟩
    exact ⟨p, hg.fieldPath? hp, hdb.fields hmem⟩

theorem Ref.Mirrors.mono {r : Ref} {d : Decl.Ref} (h : r.Mirrors db c o d) (hdb : db.Keeps db')
    (hg : o.Grows o') : r.Mirrors db' c o' d :=
  ⟨h.info, h.token, h.endpoints.imp fun _ _ he => he.mono hdb hg⟩

theorem TableGroup.Mirrors.mono {g : TableGroup} {d : Decl.TableGroup} (h : g.Mirrors db c o d)
    (hdb : db.Keeps db') (hg : o.Grows o') : g.Mirrors db' c o' d where
  info := h.info
  token := h.token
  gathers := h.gathers.of_grows hg
  tables := by
    rw [h.gathers.members_eq hg]
    exact h.tables.imp fun _ _ hmem => hdb.tables hmem

theorem Schema.Mirrors.mono {s : Schema} {d : Decl.Schema} (h : s.Mirrors db c o d)
    (hdb : db.Keeps db') (hg : o.Grows o') : s.Mirrors db' c o' d where
  info := h.info
  token := h.token
  tables := h.tables
  tags := h.tags
  enums := h.enums
  refs := h.refs.imp fun _ _ hr => hr.mono hdb hg
  tableGroups := h.tableGroups.imp fun _ _ hgroup => hgroup.mono hdb hg

theorem Entity.Mirrors.mono {e : Entity} {r : Decl.Item} (h : e.Mirrors db c o r)
    (hdb : db.Keeps db') (hg : o.Grows o') : e.Mirrors db' c o' r := by
  cases h with
  | table hd htags => exact .table hd htags
  | tag hd => exact .tag hd
  | enum hd => exact .enum hd
  | ref hr => exact .ref (hr.mono hdb hg)
  | tableGroup hgroup => exact .tableGroup (hgroup.mono hdb hg)

theorem Schema.Mirrors.insert {s : Schema} {d : Decl.Schema} {e : Entity} {r : Decl.Item}
    (h : s.Mirrors db c o d) (he : e.Mirrors db c o r) :
    (s.insert e).Mirrors db c o (d.add r) := by
  cases he with
  | table hd _ => exact { h with tables := paired_append h.tables (.cons hd .nil) }
  | tag hd => exact { h with tags := paired_append h.tags (.cons hd .nil) }
  | enum hd => exact { h with enums := paired_append h.enums (.cons hd .nil) }
  | ref hr => exact { h with refs := paired_append h.refs (.cons hr .nil) }
  | tableGroup hg => exact { h with tableGroups := paired_append h.tableGroups (.cons hg .nil) }

theorem Schema.insert_id (s : Schema) (e : Entity) : (s.insert e).id = s.id := by
  cases e <;> rfl

theorem Schema.insert_info (s : Schema) (e : Entity) :
    (s.insert e).toSchemaInfo = s.toSchemaInfo := by
  cases e <;> rfl

theorem Schema.tables_insert (s : Schema) (e : Entity) : s.tables ⊆ (s.insert e).tables := by
  cases e <;> simp [insert]

theorem Schema.mem_tables_insert {s : Schema} {e : Entity} {t : Table} :
    t ∈ (s.insert e).tables ↔ t ∈ s.tables ∨ e = .table t := by
  cases e <;> simp [insert, eq_comm]

theorem Schema.tags_insert (s : Schema) (e : Entity) : s.tags ⊆ (s.insert e).tags := by
  cases e <;> simp [insert]

/-- No number of an entity comes before one that is there: what follows is of other kinds. -/
theorem Schema.numbers_insert (s : Schema) (e : Entity) (k : Kind) :
    (s.insert e).numbers k = s.numbers k ++ e.numbers k := by
  cases e <;> cases k <;> simp [insert, numbers, Entity.numbers, Table.numbers, Index.numbers,
    Enum.numbers, Ref.numbers, Id.number, flatMap_nothing]

theorem Table.Tagged.insert {t : Table} {s : Schema} (h : t.Tagged s) (e : Entity) :
    t.Tagged (s.insert e) := by
  apply h.imp
  rintro id name ⟨g, hg, hid, hname⟩
  exact ⟨g, s.tags_insert e hg, hid, hname⟩

namespace Database

/-- A name refers to the schema with some identifier. -/
def Denotes (db : Database) (name : String) (id : Id .schema) : Prop :=
  ∃ s ∈ db.schemas, s.id = id ∧ s.isNamed name = true

theorem mem_updateSchema {id : Id .schema} {f : Schema → Schema} {s' : Schema} :
    s' ∈ (db.updateSchema id f).schemas ↔
      ∃ s ∈ db.schemas, s' = if s.id = id then f s else s := by
  simp only [updateSchema, List.mem_map]
  constructor
  · rintro ⟨s, hs, rfl⟩
    exact ⟨s, hs, rfl⟩
  · rintro ⟨s, hs, rfl⟩
    exact ⟨s, hs, rfl⟩

theorem keeps_updateSchema (db : Database) (id : Id .schema) (e : Entity) :
    db.Keeps (db.updateSchema id (·.insert e)) := by
  have held : ∀ s ∈ db.schemas, ∃ s' ∈ (db.updateSchema id (·.insert e)).schemas,
      s'.name = s.name ∧ s.tables ⊆ s'.tables := by
    intro s hs
    refine ⟨_, mem_updateSchema.mpr ⟨s, hs, rfl⟩, ?_⟩
    split
    · exact ⟨congrArg (·.name) (s.insert_info e), s.tables_insert e⟩
    · exact ⟨rfl, List.Subset.refl _⟩
  constructor
  · rintro ⟨id', p⟩ hmem
    obtain ⟨s, hs, t, ht, hid, rfl⟩ := mem_tablePaths.mp hmem
    obtain ⟨s', hs', hname, htables⟩ := held s hs
    exact mem_tablePaths.mpr ⟨s', hs', t, htables ht, hid, by rw [hname]⟩
  · rintro ⟨id', p⟩ hmem
    obtain ⟨s, hs, t, ht, f, hf, hid, rfl⟩ := mem_fieldPaths.mp hmem
    obtain ⟨s', hs', hname, htables⟩ := held s hs
    exact mem_fieldPaths.mpr ⟨s', hs', t, htables ht, f, hf, hid, by rw [hname]⟩

theorem Denotes.updateSchema {name : String} {id id' : Id .schema} (h : db.Denotes name id)
    (e : Entity) : (db.updateSchema id' (·.insert e)).Denotes name id := by
  obtain ⟨s, hs, hid, hn⟩ := h
  refine ⟨_, mem_updateSchema.mpr ⟨s, hs, rfl⟩, ?_⟩
  split
  · refine ⟨(s.insert_id e).trans hid, ?_⟩
    rw [s.insert_info e]
    exact hn
  · exact ⟨hid, hn⟩

end Database

/-- Changing the one element that passes a test adds to a list what it adds to the element. -/
theorem perm_flatMap_map {α β : Type} {l : List α} {p : α → Prop} [DecidablePred p] {f : α → α}
    {g : α → List β} {b : List β} {y : α} (hy : y ∈ l) (hpy : p y)
    (hp : l.Pairwise fun u v => ¬ (p u ∧ p v)) (hf : (g (f y)).Perm (g y ++ b)) :
    ((l.map fun u => if p u then f u else u).flatMap g).Perm (l.flatMap g ++ b) := by
  induction l with
  | nil => cases hy
  | cons u l ih =>
    obtain ⟨hu, hl⟩ := List.pairwise_cons.mp hp
    rw [List.map_cons, List.flatMap_cons, List.flatMap_cons, List.append_assoc]
    by_cases hpu : p u
    · have hrest : (l.map fun u => if p u then f u else u) = l := by
        conv_rhs => rw [← List.map_id l]
        apply List.map_congr_left
        intro v hv
        rw [if_neg fun hpv => hu v hv ⟨hpu, hpv⟩]
        rfl
      have huy : u = y := by
        rcases List.mem_cons.mp hy with rfl | hy
        · rfl
        · exact absurd ⟨hpu, hpy⟩ (hu y hy)
      rw [if_pos hpu, hrest, huy]
      apply (hf.append_right _).trans
      rw [List.append_assoc]
      exact List.Perm.append_left _ List.perm_append_comm
    · rw [if_neg hpu]
      apply List.Perm.append_left
      apply ih _ hl
      rcases List.mem_cons.mp hy with rfl | hy
      · exact absurd hpy hpu
      · exact hy

/-- An entity adds its numbers to those of the database. -/
theorem Database.numbers_updateSchema (hn : (db.numbers .schema).Nodup) {id : Id .schema}
    (hid : ∃ s ∈ db.schemas, s.id = id) (e : Entity) (k : Kind) :
    ((db.updateSchema id (·.insert e)).numbers k).Perm (db.numbers k ++ e.numbers k) := by
  obtain ⟨s, hs, hsid⟩ := hid
  have hapart : db.schemas.Pairwise fun u v => ¬ (u.id = id ∧ v.id = id) := by
    apply (List.pairwise_map.mp (Database.nodup_arena hn)).imp
    rintro u v hne ⟨rfl, hv⟩
    exact hne hv.symm
  unfold Database.numbers
  rw [List.append_assoc]
  apply List.Perm.append_left
  exact perm_flatMap_map hs hsid hapart (.of_eq (s.numbers_insert e k))

namespace Assembly.Mirrors

variable {name : String} {id : Id .schema}

theorem id_eq_iff (h : a.Mirrors c project x) (hid : a.database.Denotes name id) {s : Schema}
    (hs : s ∈ a.database.schemas) : s.id = id ↔ s.isNamed name = true := by
  obtain ⟨s', hs', rfl, hn⟩ := hid
  constructor
  · intro heq
    rw [h.eq_of_schema_id hs hs' heq]
    exact hn
  · intro hsn
    rw [h.eq_of_isNamed hs hs' hsn hn]

/-- The schema behind an identifier and its counterpart in the outline. -/
theorem schema?_of_denotes (h : a.Mirrors c project x) (hid : a.database.Denotes name id) :
    ∃ s d, a.database.schema? id = some s ∧ s ∈ a.database.schemas ∧ s.id = id ∧
      x.outline.schema? name = some d ∧ s.Mirrors a.database c x.outline d := by
  obtain ⟨s, hs, hsid, hn⟩ := hid
  rcases find?_of_paired h.schemas (p := fun s => s.isNamed name) (q := fun d => d.isNamed name)
    fun _ _ hm => hm.isNamed name with ⟨hnone, -⟩ | ⟨s', d, hs', hd, hm⟩
  · exact absurd hn (List.find?_eq_none.mp hnone s hs)
  · have hmem := List.mem_of_find?_eq_some hs'
    have hn' := List.find?_some (p := fun s : Schema => s.isNamed name) hs'
    obtain rfl := h.eq_of_isNamed hs hmem hn hn'
    refine ⟨s, d, ?_, hs, hsid, hd, hm⟩
    apply find?_of_unique hs (decide_eq_true hsid)
    intro t ht htid
    exact h.eq_of_schema_id ht hs ((of_decide_eq_true htid).trans hsid.symm)

theorem next_eq (h : a.Mirrors c project x) (k : Kind) :
    a.ids.next k = c.idBase.toNat + x.outline.extent k := by
  unfold Allocator.next
  rw [h.base, h.issued k]

theorem next_le (h : a.Mirrors c project x) (k : Kind) : a.ids.next k ≤ UInt32.size := by
  rw [h.next_eq k]
  exact h.sound.room k

section Drawing

variable {ids : Allocator} {need : Kind → Nat} (hdrew : a.ids.Drew ids need)
  (hextent : ∀ k, o'.extent k = x.outline.extent k + need k)

include hdrew hextent

/-! An outline that grows by what has been drawn. -/

theorem issued_of_drew (h : a.Mirrors c project x) (k : Kind) : ids.issued k = o'.extent k := by
  rw [hextent k, ← h.issued k]
  exact hdrew.issued k

theorem hasRoom_of_drew (h : a.Mirrors c project x) : o'.HasRoom c := by
  intro k
  have hroom := hdrew.fits k (h.next_le k)
  rw [h.next_eq k, Nat.add_assoc, ← hextent k] at hroom
  exact hroom

omit hdrew

theorem numbers_of_drew (h : a.Mirrors c project x) {k : Kind} {ns : List Nat}
    (hns : ns.Perm (a.database.numbers k ++ List.range' (a.ids.next k) (need k))) :
    ns.Perm (List.range' c.idBase.toNat (o'.extent k)) := by
  rw [hextent k, ← List.range'_append_1, ← h.next_eq k]
  exact hns.trans ((h.numbers k).append_right _)

/-- Where more would have to be drawn than there is, the outline has no room. -/
theorem not_hasRoom (h : a.Mirrors c project x) {k : Kind}
    (hk : UInt32.size < a.ids.next k + need k) : ¬ o'.HasRoom c := by
  intro hroom
  have hroom' := hroom k
  rw [hextent k, ← Nat.add_assoc, ← h.next_eq k] at hroom'
  omega

end Drawing

theorem schemas_updateSchema (h : a.Mirrors c project x) (hid : a.database.Denotes name id)
    {e : Entity} {r : Decl.Item} (he : e.Mirrors a.database c x.outline r) :
    List.Forall₂ (Schema.Mirrors (a.database.updateSchema id (·.insert e)) c
      (x.outline.place name r)) (a.database.updateSchema id (·.insert e)).schemas
      (x.outline.place name r) := by
  have hkeeps := a.database.keeps_updateSchema id e
  have hgrows := Decl.Outline.grows_place x.outline name r
  rw [Decl.Outline.place, Database.updateSchema, List.forall₂_map_left_iff,
    List.forall₂_map_right_iff]
  apply paired_imp_of_mem h.schemas
  intro u hu v hv hm
  have hm' := hm.mono hkeeps hgrows
  by_cases huid : u.id = id
  · rw [if_pos huid, if_pos]
    · exact hm'.insert (he.mono hkeeps hgrows)
    · rw [← hm.isNamed]
      exact (h.id_eq_iff hid hu).mp huid
  · rw [if_neg huid, if_neg]
    · exact hm'
    · rw [← hm.isNamed]
      exact fun hn => huid ((h.id_eq_iff hid hu).mpr hn)

/-- Inserting an entity into a schema places its record there. -/
theorem place (h : a.Mirrors c project x) (hid : a.database.Denotes name id) {e : Entity}
    {r : Decl.Item} {ids : Allocator} (he : e.Mirrors a.database c x.outline r)
    (hfits : ∀ d, x.outline.schema? name = some d → r.Fits c x.outline d)
    (hdrew : a.ids.Drew ids r.extent)
    (hnumbers : ∀ k, e.numbers k = List.range' (a.ids.next k) (r.extent k))
    (htags : ∀ d, r = .table d → x.tagged = false) :
    Assembly.Mirrors c project (x.step c (.place name r))
      ⟨a.database.updateSchema id (·.insert e), ids⟩ := by
  obtain ⟨s, d, -, -, -, hd, -⟩ := h.schema?_of_denotes hid
  have hextent : ∀ k, (x.step c (.place name r)).outline.extent k
      = x.outline.extent k + r.extent k :=
    Decl.Outline.extent_place h.sound.apart hd
  constructor
  · exact h.config
  · exact h.project
  · exact hdrew.base.trans h.base
  · exact h.issued_of_drew hdrew hextent
  · intro k
    apply h.numbers_of_drew hextent
    rw [← hnumbers k]
    obtain ⟨s, hs, hsid, -⟩ := hid
    exact Database.numbers_updateSchema (h.nodup_numbers .schema) ⟨s, hs, hsid⟩ e k
  · exact h.schemas_updateSchema hid he
  · intro htagged u hu t ht
    obtain ⟨v, hv, rfl⟩ := Database.mem_updateSchema.mp hu
    split at ht
    · rcases Schema.mem_tables_insert.mp ht with ht | rfl
      · exact h.untagged htagged v hv t ht
      · cases he with
        | table _ hnone => exact hnone
    · exact h.untagged htagged v hv t ht
  · intro htagged u hu t ht
    obtain ⟨v, hv, rfl⟩ := Database.mem_updateSchema.mp hu
    split at ht
    · rename_i hvid
      rw [if_pos hvid]
      rcases Schema.mem_tables_insert.mp ht with ht | rfl
      · exact (h.tagged htagged v hv t ht).insert e
      · cases he with
        | table _ _ =>
          have huntagged := htags _ rfl
          have htrue : x.tagged = true := htagged
          rw [huntagged] at htrue
          cases htrue
    · rename_i hvid
      rw [if_neg hvid]
      exact h.tagged htagged v hv t ht
  · exact h.marked
  · exact h.sound.place hd (hfits d hd) (h.hasRoom_of_drew hdrew hextent)

end Assembly.Mirrors

end Catalog
