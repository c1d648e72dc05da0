import Catalog.Proofs.History
import Catalog.Proofs.Numbering.Sorted
import Catalog.Proofs.RefLinks
import Catalog.Proofs.TagLinks

/-!
The identifiers in a database that has been built. Those of each kind are all that were issued, from
the base on and without a gap, and lists of what belongs together have them in ascending order.
Operations may leave gaps behind them, but what they add has numbers that were never there before.
-/
namespace Catalog

/-- Identifiers in ascending order, each once. -/
def InOrder {k : Kind} (is : List (Id k)) : Prop :=
  is.Pairwise fun i j => i.toNat < j.toNat

/-- What is owned is listed in ascending order, and so are the endpoints that include a field and
the tables that have a tag. -/
structure Database.Ascending (db : Database) : Prop where
  schemas : InOrder (db.schemas.map (·.id))
  tables : ∀ s ∈ db.schemas, InOrder (s.tables.map (·.id))
  enums : ∀ s ∈ db.schemas, InOrder (s.enums.map (·.id))
  refs : ∀ s ∈ db.schemas, InOrder (s.refs.map (·.id))
  tags : ∀ s ∈ db.schemas, InOrder (s.tags.map (·.id))
  tableGroups : ∀ s ∈ db.schemas, InOrder (s.tableGroups.map (·.id))
  fields : ∀ t ∈ db.tables, InOrder (t.fields.map (·.id))
  indexes : ∀ t ∈ db.tables, InOrder (t.indexes.map (·.id))
  indexColumns : ∀ i ∈ db.indexes, InOrder (i.columns.map (·.id))
  enumValues : ∀ e ∈ db.enums, InOrder (e.values.map (·.id))
  endpoints : ∀ r ∈ db.refs, InOrder (r.endpoints.map (·.id))
  fieldEndpoints : ∀ f ∈ db.fields, InOrder f.endpoints
  tagTables : ∀ g ∈ db.tags, InOrder g.tables

/-! Lists in ascending order. -/

theorem inOrder_of_sublist {k : Kind} {is : List (Id k)} {ns : List Nat}
    (h : ns.Pairwise (· < ·)) (hsub : (is.map (·.toNat)).Sublist ns) : InOrder is :=
  List.pairwise_map.mp (h.sublist hsub)

/-- The identifiers that a schema lists. -/
def Schema.lists (s : Schema) : (k : Kind) → List (Id k)
  | .table => s.tables.map (·.id)
  | .enum => s.enums.map (·.id)
  | .ref => s.refs.map (·.id)
  | .tag => s.tags.map (·.id)
  | .tableGroup => s.tableGroups.map (·.id)
  | _ => []

/-- The identifiers that a table lists. -/
def Table.lists (t : Table) : (k : Kind) → List (Id k)
  | .field => t.fields.map (·.id)
  | .index => t.indexes.map (·.id)
  | _ => []

theorem Table.lists_sublist (t : Table) (k : Kind) :
    ((t.lists k).map (·.toNat)).Sublist (t.numbers k) := by
  cases k <;>
    simp [lists, numbers, Index.numbers, Id.number, flatMap_nothing, List.map_eq_flatMap,
      List.flatMap_assoc]

theorem Schema.lists_sublist (s : Schema) (k : Kind) :
    ((s.lists k).map (·.toNat)).Sublist (s.numbers k) := by
  cases k <;>
    simp [lists, numbers, Table.numbers, Index.numbers, Enum.numbers, Ref.numbers, Id.number,
      flatMap_nothing, List.map_eq_flatMap, List.flatMap_assoc]

/-- The numbers in a part of a schema go up as they do in the schema. -/
theorem Schema.Sorted.parts {s : Schema} (h : s.Sorted) (k : Kind) :
    (∀ t ∈ s.tables, (t.numbers k).Pairwise (· < ·)) ∧
    (∀ e ∈ s.enums, (e.numbers k).Pairwise (· < ·)) ∧
    ∀ r ∈ s.refs, (r.numbers k).Pairwise (· < ·) := by
  have hall := h k
  simp only [numbers, List.pairwise_append, List.pairwise_flatMap] at hall
  obtain ⟨⟨⟨⟨⟨-, ⟨htables, -⟩, -⟩, -, -⟩, ⟨henums, -⟩, -⟩, ⟨hrefs, -⟩, -⟩, -, -⟩ := hall
  exact ⟨htables, henums, hrefs⟩

/-- Tables are listed by tags in the order of their schema. -/
theorem Schema.Sorted.listed {s : Schema} (h : s.Sorted) (name : String) :
    InOrder (s.listed name) :=
  List.Pairwise.sublist (List.filter_sublist.map _)
    (inOrder_of_sublist (h .table) (s.lists_sublist .table))

namespace Database

variable {db : Database}

theorem Sorted.lists (h : db.Sorted) {s : Schema} (hs : s ∈ db.schemas) (k : Kind) :
    InOrder (s.lists k) :=
  inOrder_of_sublist (h.children s hs k) (s.lists_sublist k)

theorem Sorted.table (h : db.Sorted) {t : Table} (ht : t ∈ db.tables) (k : Kind) :
    (t.numbers k).Pairwise (· < ·) := by
  obtain ⟨s, hs, ht⟩ := List.mem_flatMap.mp ht
  exact ((h.children s hs).parts k).1 t ht

theorem Sorted.ascending (h : db.Sorted) (hfields : ∀ f ∈ db.fields, InOrder f.endpoints)
    (htags : ∀ g ∈ db.tags, InOrder g.tables) : db.Ascending where
  schemas := by
    apply inOrder_of_sublist h.schemas
    rw [List.map_map]
    exact .refl _
  tables _ hs := h.lists hs .table
  enums _ hs := h.lists hs .enum
  refs _ hs := h.lists hs .ref
  tags _ hs := h.lists hs .tag
  tableGroups _ hs := h.lists hs .tableGroup
  fields t ht := inOrder_of_sublist (h.table ht .field) (t.lists_sublist .field)
  indexes t ht := inOrder_of_sublist (h.table ht .index) (t.lists_sublist .index)
  indexColumns i hi := by
    obtain ⟨t, ht, hi⟩ := List.mem_flatMap.mp hi
    have hall := h.table ht .indexColumn
    simp only [Table.numbers, List.pairwise_append, List.pairwise_flatMap] at hall
    obtain ⟨-, ⟨hindexes, -⟩, -⟩ := hall
    apply inOrder_of_sublist (hindexes i hi)
    simp [Index.numbers, Id.number, List.map_eq_flatMap, List.flatMap_assoc]
  enumValues e he := by
    obtain ⟨s, hs, he⟩ := List.mem_flatMap.mp he
    apply inOrder_of_sublist (((h.children s hs).parts .enumValue).2.1 e he)
    simp [Enum.numbers, Id.number, List.map_eq_flatMap, List.flatMap_assoc]
  endpoints r hr := by
    obtain ⟨s, hs, hr⟩ := List.mem_flatMap.mp hr
    apply inOrder_of_sublist (((h.children s hs).parts .endpoint).2.2 r hr)
    simp [Ref.numbers, Id.number, List.map_eq_flatMap, List.flatMap_assoc]
  fieldEndpoints := hfields
  tagTables := htags

end Database

namespace Assembly

/-- What has been added has numbers that had not been issued. -/
structure Extends (a b : Assembly) : Prop where
  kept : ∀ k, a.database.arena k ⊆ b.database.arena k
  fresh : ∀ k, ∀ i ∈ b.database.arena k, i ∈ a.database.arena k ∨ a.ids.next k ≤ i.toNat

variable {a b b' : Assembly} {ns ns' : Kind → List Nat}

theorem Adds.extends (h : Adds a b ns) : a.Extends b where
  kept k i hi := Database.mem_arena.mpr
    ((h.numbers k).mem_iff.mpr (List.mem_append_left _ (Database.mem_arena.mp hi)))
  fresh k i hi := by
    have hmem := (h.numbers k).mem_iff.mp (Database.mem_arena.mp hi)
    rcases List.mem_append.mp hmem with hold | hnew
    · exact .inl (Database.mem_arena.mpr hold)
    · exact .inr (h.bounds k _ hnew).1

theorem Adds.trans (h : Adds a b ns) (h' : Adds b b' ns') : Adds a b' fun k => ns k ++ ns' k where
  ids := h.ids.trans h'.ids
  numbers := by
    intro k
    rw [← List.append_assoc]
    exact (h'.numbers k).trans ((h.numbers k).append_right _)
  nodup := by
    intro k
    rw [List.nodup_append]
    refine ⟨h.nodup k, h'.nodup k, ?_⟩
    rintro n hn _ hnew rfl
    exact Nat.not_le_of_lt (h.bounds k n hn).2 (h'.bounds k n hnew).1
  bounds := by
    intro k n hn
    have hle := h.ids.next_le k
    have hle' := h'.ids.next_le k
    rcases List.mem_append.mp hn with hn | hn
    · have hbounds := h.bounds k n hn
      omega
    · have hbounds := h'.bounds k n hn
      omega

/-- Whatever changes are made, the numbers that they add come next. -/
theorem Numbered.adds_of_changes {m : Remit} (h : a.Numbered) (hab : Changes m a b) :
    ∃ ns, Adds a b ns := by
  have hboth : b.Numbered ∧ ∃ ns, Adds a b ns := by
    apply hab.keep (I := fun b => b.Numbered ∧ ∃ ns, Adds a b ns)
    · rintro b b' ⟨hb, ns, hadds⟩ hbb'
      obtain ⟨ns', hadds'⟩ := hb.adds hbb'
      exact ⟨hb.of_adds hadds', _, hadds.trans hadds'⟩
    · exact ⟨h, _, adds_of_same (.refl _) fun _ => rfl⟩
  exact hboth.2

section Build

variable {bundle : Decl.Bundle} {c : Config}

theorem arena_of_build (h : build bundle c = .ok a) (k : Kind) :
    ((a.database.arena k).map (·.toNat)).Perm
      (List.range' c.idBase.toNat (a.ids.issued k)) := by
  have hm := (mirrors_of_build h).mirrors
  rw [← Database.numbers_eq_arena, hm.issued]
  exact hm.numbers k

theorem ascending_of_build (h : build bundle c = .ok a) : a.database.Ascending := by
  have hreach : a.Reachable := .build h
  apply hreach.sorted.ascending
  · exact fun f hf => (hreach.connected.recorded f hf).ascending
  · intro g hg
    obtain ⟨s, hs, hg⟩ := List.mem_flatMap.mp hg
    rw [listed_of_build h s hs g hg]
    exact (hreach.sorted.children s hs).listed g.name

theorem idBase_le_of_mem (h : build bundle c = .ok a) {k : Kind} {i : Id k}
    (hi : i ∈ a.database.arena k) : c.idBase.toNat ≤ i.toNat := by
  have hmem := (arena_of_build h k).mem_iff.mp (List.mem_map.mpr ⟨i, hi, rfl⟩)
  exact (List.mem_range'_1.mp hmem).1

/-- What is built has identifiers from the base on, and what comes after it has greater ones. -/
theorem idBase_le_of_build (h : build bundle c = .ok a) (hab : a.Extends b) {k : Kind} {i : Id k}
    (hi : i ∈ b.database.arena k) : c.idBase.toNat ≤ i.toNat := by
  rcases hab.fresh k i hi with hold | hnew
  · exact idBase_le_of_mem h hold
  · have hbase : a.ids.base = c.idBase := (mirrors_of_build h).mirrors.base
    rw [Allocator.next, hbase] at hnew
    omega

/-- In what is built, the identifiers of each kind are all that have been issued, and lists have
them in ascending order. Wherever operations lead from there, identifiers are between the base and
the next one to be issued, so what an operation adds, if anything, takes the place of nothing. -/
theorem numbering_of_build (h : build bundle c = .ok a) :
    (∀ k, ((a.database.arena k).map (·.toNat)).Perm
      (List.range' c.idBase.toNat (a.ids.issued k))) ∧
    a.database.Ascending ∧
    ∀ b, a.Leads b →
      (∀ k, (b.database.arena k).Nodup ∧
        ∀ i ∈ b.database.arena k, c.idBase.toNat ≤ i.toNat ∧ i.toNat < b.ids.next k) ∧
      ∀ op : Operation, op.AppliesTo b.database → b.Extends (b.after op) := by
  refine ⟨arena_of_build h, ascending_of_build h, ?_⟩
  intro b hab
  have hsound : b.Sound := (hab.reachable (.build h)).sound
  obtain ⟨_, hadds⟩ := (Reachable.build h).sound.numbered.adds_of_changes hab.changes
  constructor
  · intro k
    refine ⟨hsound.nodup_arena k, ?_⟩
    intro i hi
    exact ⟨idBase_le_of_build h hadds.extends hi,
      hsound.numbered.below k _ (Database.mem_arena.mp hi)⟩
  · intro op happlies
    obtain ⟨_, hadds'⟩ := hsound.numbered.adds_of_changes (Operation.changes happlies)
    exact hadds'.extends

end Build

/-- A schema that is rejected has taken an identifier, which is passed over from then on. -/
theorem numbering_shelves : ∃ a, build .shelves { idBase := 10 } = .ok a ∧
    (∀ k, ((a.database.arena k).map (·.toNat)).Perm (List.range' 10 (a.ids.issued k))) ∧
    a.database.Ascending ∧
    let b := a.after (.pushSchema { name := "shop" } {})
    let b' := b.after (.getOrCreateSchema "archive")
    a.Leads b ∧
    (∀ k, (b.database.arena k).Nodup ∧
      ∀ i ∈ b.database.arena k, 10 ≤ i.toNat ∧ i.toNat < b.ids.next k) ∧
    b.Extends b' ∧
    (b.database.arena .schema).map (·.toNat) = [10, 11] ∧ b.ids.next .schema = 13 ∧
    (b'.database.arena .schema).map (·.toNat) = [10, 11, 13] := by
  have hbuilt : (build .shelves { idBase := 10 }).toOption.any (fun a =>
      let b := a.after (.pushSchema { name := "shop" } {})
      let b' := b.after (.getOrCreateSchema "archive")
      decide ((b.database.arena .schema).map (·.toNat) = [10, 11] ∧ b.ids.next .schema = 13 ∧
        (b'.database.arena .schema).map (·.toNat) = [10, 11, 13])) = true := by
    decide +kernel
  obtain ⟨a, ha, heval⟩ := exists_ok_of_any hbuilt
  obtain ⟨hdense, hascending, hlater⟩ := numbering_of_build ha
  have hleads : a.Leads (a.after (.pushSchema { name := "shop" } {})) :=
    .single ⟨.pushSchema { name := "shop" } {}, trivial, rfl⟩
  obtain ⟨hbounds, hextends⟩ := hlater _ hleads
  have hadded := hextends (.getOrCreateSchema "archive") trivial
  exact ⟨a, ha, hdense, hascending, hleads, hbounds, hadded, of_decide_eq_true heval⟩

end Assembly

end Catalog
