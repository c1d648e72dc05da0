import Catalog.Proofs.Integrity.Reach
import Catalog.Proofs.Tree

/-!
Table groups in every reachable database. A group lists its tables and each of them records the
group, whichever schemas they are in. A table that is in a group is found out before a second group
takes any, so the two sides never part.
-/
namespace Catalog

namespace Database

/-- A table records a group exactly if the group lists it, and no group lists a table twice. -/
structure Affiliated (db : Database) : Prop where
  member : ∀ t ∈ db.tables, ∀ i, t.group = some i ↔
    ∃ g ∈ db.tableGroups, g.id = i ∧ t.id ∈ g.tables
  once : ∀ g ∈ db.tableGroups, g.tables.Nodup

/-- Besides, no table is in two groups, and no two groups of a schema share a name. -/
structure Partitioned (db : Database) : Prop extends db.Affiliated where
  apart : db.tableGroups.Pairwise fun g g' => g.tables.Disjoint g'.tables
  names : ∀ s ∈ db.schemas, (s.tableGroups.map (·.name)).Nodup

end Database

/-! What a group is made of. -/

section Resolved

variable {db : Database} {token : Span}

/-- A table that is named twice, under whatever name, is found once. -/
theorem Database.nodup_of_resolveMembers {ms : List Decl.Member} {found ts : List Table}
    (h : db.resolveMembers token found ms = .ok ts) (hfound : (found.map (·.id)).Nodup) :
    (ts.map (·.id)).Nodup := by
  induction ms generalizing found with
  | nil =>
    cases h
    exact hfound
  | cons m ms ih =>
    obtain ⟨s, t, -, hrest⟩ := resolveMembers_cons h
    apply ih hrest
    split
    · exact hfound
    · rename_i hnew
      rw [List.map_append, List.map_singleton, List.nodup_append]
      refine ⟨hfound, List.nodup_singleton _, ?_⟩
      rintro i hi _ hj rfl
      obtain ⟨u, hu, huid⟩ := List.mem_map.mp hi
      have hid : u.id = t.id := huid.trans (List.mem_singleton.mp hj)
      exact hnew (List.any_eq_true.mpr ⟨u, hu, decide_eq_true hid⟩)

variable {g : TableGroup}

theorem TableGroup.ResolvedIn.nodup (h : g.ResolvedIn db) : g.tables.Nodup := by
  obtain ⟨d, ts, hres, -, -, htables, -⟩ := h
  rw [htables]
  exact Database.nodup_of_resolveMembers hres .nil

/-- The tables of a new group have been in none. -/
theorem TableGroup.ResolvedIn.ungrouped (h : g.ResolvedIn db) (hn : (db.arena .table).Nodup)
    {t : Table} (ht : t ∈ db.tables) (hmem : t.id ∈ g.tables) : t.group = none := by
  obtain ⟨d, ts, hres, -, -, htables, hnone⟩ := h
  rw [htables] at hmem
  obtain ⟨u, hu, hid⟩ := List.mem_map.mp hmem
  rcases Database.mem_of_resolveMembers hres hu with hfound | ⟨s, hs, hus⟩
  · cases hfound
  · have hmem' : u ∈ db.tables := List.mem_flatMap.mpr ⟨s, hs, hus⟩
    obtain rfl : u = t := List.inj_on_of_nodup_map hn hmem' ht hid
    exact Option.not_isSome_iff_eq_none.mp (firstGrouped?_eq_none_iff.mp hnone u hu)

end Resolved

/-! What becomes of tables and groups. -/

namespace Database

variable {db : Database} {id : Id .schema} {e : Entity}

theorem mem_tables_relink {f : Table → Table} {g : Enum → Enum} {t' : Table}
    (h : t' ∈ (db.relink f g).tables) : ∃ t ∈ db.tables, t' = f t := by
  obtain ⟨s', hs', ht'⟩ := List.mem_flatMap.mp h
  obtain ⟨s, hs, rfl⟩ := mem_relink.mp hs'
  obtain ⟨t, ht, rfl⟩ := List.mem_map.mp ht'
  exact ⟨t, List.mem_flatMap.mpr ⟨s, hs, ht⟩, rfl⟩

theorem mem_tables_place {t' : Table} (h : t' ∈ (db.place id e).tables) :
    (∃ t ∈ db.tables, t' = e.tie t) ∨ e = .table t' := by
  obtain ⟨s', hs', ht'⟩ := List.mem_flatMap.mp h
  rcases mem_tables_updateSchema hs' ht' with ⟨s, hs, ht'⟩ | he
  · exact .inl (mem_tables_relink (List.mem_flatMap.mpr ⟨s, hs, ht'⟩))
  · exact .inr he

theorem hasGroup_iff {g : TableGroup} : db.HasGroup g ↔ g ∈ db.tableGroups :=
  List.mem_flatMap.symm

theorem mem_tableGroups_place (hid : ∃ s ∈ db.schemas, s.id = id) {g : TableGroup} :
    g ∈ (db.place id e).tableGroups ↔ g ∈ db.tableGroups ∨ e = .tableGroup g := by
  have hid' : ∃ s ∈ (db.relink e.tie fun e => e).schemas, s.id = id := by
    obtain ⟨s, hs, hsid⟩ := hid
    exact ⟨_, mem_relink.mpr ⟨s, hs, rfl⟩, hsid⟩
  rw [← hasGroup_iff, place, hasGroup_insert hid', hasGroup_relink, hasGroup_iff]

/-- A table that is in no new group records what it did. -/
theorem group_tie (t : Table) (h : ∀ g, e = .tableGroup g → t.id ∉ g.tables) :
    (e.tie t).group = t.group := by
  cases e with
  | tableGroup g =>
    have hout : ¬ g.tables.contains t.id = true := by
      rw [List.contains_iff_mem]
      exact h g rfl
    simp only [Entity.tie, if_neg hout]
  | _ => rfl

theorem group_tie_of_mem {g : TableGroup} {t : Table} (h : t.id ∈ g.tables) :
    ((Entity.tableGroup g).tie t).group = some g.id := by
  simp only [Entity.tie, if_pos (List.contains_iff_mem.mpr h)]

/-- What is told of tables and groups apart from their order. -/
theorem Affiliated.of_alike {db' : Database} (h : db.Affiliated)
    (htables : ∀ t' ∈ db'.tables, ∃ t ∈ db.tables, t'.id = t.id ∧ t'.group = t.group)
    (hgroups : db'.tableGroups = db.tableGroups) : db'.Affiliated where
  member := by
    intro t' ht' i
    obtain ⟨t, ht, hid, hgroup⟩ := htables t' ht'
    rw [hid, hgroup, hgroups]
    exact h.member t ht i
  once := by
    rw [hgroups]
    exact h.once

theorem tableGroups_relink (f : Table → Table) (g : Enum → Enum) :
    (db.relink f g).tableGroups = db.tableGroups := by
  simp only [tableGroups, relink, List.flatMap_map]

theorem Affiliated.bindEnum (h : db.Affiliated) (i : Id .enum) : (db.bindEnum i).Affiliated := by
  obtain ⟨f, g, heq, hf, -⟩ := db.bindEnum_eq_relink i
  rw [heq]
  apply h.of_alike _ (tableGroups_relink f g)
  intro t' ht'
  obtain ⟨t, ht, rfl⟩ := mem_tables_relink ht'
  exact ⟨t, ht, (hf t).1.id, (hf t).2⟩

end Database

namespace Assembly

variable {m : Remit} {a b : Assembly} {s : Schema} {e : Entity}

/-- What is inserted has identifiers that nothing has had before. -/
theorem Inserts.fresh (hab : a.Inserts s e b) (h : a.Numbered) {k : Kind} {i : Id k}
    (hi : i.toNat ∈ e.numbers k) : i ∉ a.database.arena k := by
  intro hmem
  have hbelow := h.below k _ (Database.mem_arena.mp hmem)
  exact Nat.not_lt_of_le (hab.ids.mem_bounds hi).1 hbelow

theorem Inserts.affiliated (hab : a.Inserts s e b) (hs : a.Sound) (h : a.database.Affiliated) :
    (a.database.place s.id e).Affiliated where
  member := by
    intro t' ht' i
    simp only [Database.mem_tableGroups_place ⟨s, hab.schema, rfl⟩]
    rcases Database.mem_tables_place ht' with ⟨t, ht, rfl⟩ | rfl
    · rw [(e.agrees_tie t).id]
      have hold := h.member t ht i
      by_cases hnew : ∃ g, e = .tableGroup g ∧ t.id ∈ g.tables
      · obtain ⟨g, rfl, hmem⟩ := hnew
        have hnone : t.group = none := hab.fits.linked.ungrouped (hs.nodup_arena .table) ht hmem
        rw [hnone] at hold
        rw [Database.group_tie_of_mem hmem, Option.some.injEq]
        constructor
        · rintro rfl
          exact ⟨g, .inr rfl, rfl, hmem⟩
        · rintro ⟨g', hg' | heq, hid, hmem'⟩
          · cases hold.mpr ⟨g', hg', hid, hmem'⟩
          · cases heq
            exact hid
      · have hout : ∀ g, e = .tableGroup g → t.id ∉ g.tables :=
          fun g he hmem => hnew ⟨g, he, hmem⟩
        rw [Database.group_tie t hout, hold]
        constructor
        · rintro ⟨g, hg, hboth⟩
          exact ⟨g, .inl hg, hboth⟩
        · rintro ⟨g, hg | heq, hid, hmem⟩
          · exact ⟨g, hg, hid, hmem⟩
          · exact absurd hmem (hout g heq)
    · -- No group can list the new table, as its identifier has never been in use.
      have hfresh : t'.id ∉ a.database.arena .table :=
        hab.fresh hs.numbered (by simp [Entity.numbers, Table.numbers, Id.number])
      rw [hab.fits.linked.group]
      constructor
      · rintro ⟨⟩
      · rintro ⟨g, hg | heq, -, hmem⟩
        · exact absurd (hs.linked.groupTables hg hmem) hfresh
        · cases heq
  once := by
    intro g hg
    rcases (Database.mem_tableGroups_place ⟨s, hab.schema, rfl⟩).mp hg with hg | rfl
    · exact h.once g hg
    · exact hab.fits.linked.nodup

theorem Sound.affiliated_change (hs : a.Sound) (h : a.database.Affiliated) (hab : Change m a b) :
    b.database.Affiliated := by
  cases hab with
  | spend hab =>
    rw [hab.database]
    exact h
  | mark => exact h.of_alike (fun t ht => ⟨t, ht, rfl, rfl⟩) rfl
  | opens hab =>
    have htables : b.database.tables = a.database.tables := by
      rw [hab.database, hab.empty]
      simp [Database.tables, Database.addSchema]
    apply h.of_alike
    · rw [htables]
      exact fun t ht => ⟨t, ht, rfl, rfl⟩
    · rw [hab.database, hab.empty]
      simp [Database.tableGroups, Database.addSchema]
  | @inserts s e _ hab =>
    have hplaced := hab.affiliated hs h
    rw [hab.database]
    rcases a.database.commit_cases s.id e with ⟨-, heq⟩ | ⟨en, -, -, heq⟩
    · rw [heq]
      exact hplaced
    · rw [heq]
      exact hplaced.bindEnum en.id
  | bindEnum i => exact h.bindEnum i

/-- Binding tags leaves tables in their groups. -/
theorem Bound.affiliated (hab : Bound a b) (h : a.database.Affiliated) :
    b.database.Affiliated := by
  apply h.of_alike
  · intro t' ht'
    obtain ⟨s', hs', ht'⟩ := List.mem_flatMap.mp ht'
    obtain ⟨s, hs, hbound⟩ := exists_right_of_paired hab.schemas hs'
    obtain ⟨t, ht, htbound⟩ := exists_right_of_paired hbound.tables ht'
    exact ⟨t, List.mem_flatMap.mpr ⟨s, hs, ht⟩, htbound.id, htbound.group⟩
  · apply flatMap_eq_of_paired hab.schemas
    intro s' s hs
    rw [hs.same]

/-- Tables are in one group at most, since they record one at most. -/
theorem Sound.partitioned (hs : a.Sound) (h : a.database.Affiliated) :
    a.database.Partitioned where
  toAffiliated := h
  apart := by
    have hids : a.database.tableGroups.Pairwise fun g g' => g.id ≠ g'.id :=
      List.pairwise_map.mp (hs.nodup_arena .tableGroup)
    apply hids.imp_of_mem
    intro g g' hg hg' hne i hi hi'
    obtain ⟨t, ht, rfl⟩ := List.mem_map.mp (hs.linked.groupTables hg hi)
    have hgroup := (h.member t ht g.id).mpr ⟨g, hg, rfl, hi⟩
    have hgroup' := (h.member t ht g'.id).mpr ⟨g', hg', rfl, hi'⟩
    exact hne (Option.some.inj (hgroup.symm.trans hgroup'))
  names := fun s hmem => (hs.named.distinct s hmem).children .tableGroup

theorem affiliated_start (c : Config) (project : DatabaseInfo) :
    (start c project).database.Affiliated :=
  ⟨fun _ ht => absurd ht List.not_mem_nil, fun _ hg => absurd hg List.not_mem_nil⟩

theorem Reachable.affiliated (h : a.Reachable) : a.database.Affiliated :=
  h.keep_sound affiliated_start (fun _ _ => Sound.affiliated_change)
    fun _ _ hs ha hab => (hs.bound hab).affiliated ha

/-- Whatever is built and whatever is done to it after that, groups and tables agree on who belongs
to whom, and groups have no table in common. -/
theorem Reachable.partitioned_groups (h : a.Reachable) : a.database.Partitioned :=
  h.sound.partitioned h.affiliated

end Assembly

/-- Puts tables of the default schema into a group of the schema with some number. -/
def Operation.group (schema : UInt32) (name : String) (members : List String) : Operation :=
  .pushTableGroup ⟨schema⟩ { name, tables := members.map fun name => { name } }

/-- A group that is rejected for its last member leaves no trace in the others, so they can be in
another one, which lists them once under whatever names. -/
theorem Assembly.partitioned_orders : ∃ a, build .orders {} = .ok a ∧
    let a₁ := a.after (.pushTable ⟨1⟩ { name := "items", aliasName := some "goods" })
    let a₂ := a₁.after (.group 2 "stock" ["items", "users"])
    let a₃ := a₂.after (.group 2 "stock" ["items", "goods"])
    a₃.Reachable ∧ a₃.database.Partitioned ∧
      a₃.database.tables.map (fun t => (t.name, t.group.map (·.toNat))) =
        [("users", some 1), ("items", some 3), ("orders", some 1)] ∧
      a₃.database.tableGroups.map (fun g => (g.name, g.tables.map (·.toNat))) =
        [("shop", [1, 2]), ("stock", [3])] := by
  have hbuilt : (build .orders {}).toOption.any (fun a =>
      let a₁ := a.after (.pushTable ⟨1⟩ { name := "items", aliasName := some "goods" })
      let a₂ := a₁.after (.group 2 "stock" ["items", "users"])
      let a₃ := a₂.after (.group 2 "stock" ["items", "goods"])
      (a.database.schemas.any (·.id = ⟨1⟩) && a₁.database.schemas.any (·.id = ⟨2⟩) &&
        a₂.database.schemas.any (·.id = ⟨2⟩)) &&
        decide (a₃.database.tables.map (fun t => (t.name, t.group.map (·.toNat))) =
            [("users", some 1), ("items", some 3), ("orders", some 1)] ∧
          a₃.database.tableGroups.map (fun g => (g.name, g.tables.map (·.toNat))) =
            [("shop", [1, 2]), ("stock", [3])])) = true := by
    decide +kernel
  obtain ⟨a, ha, heval⟩ := exists_ok_of_any hbuilt
  simp only [Bool.and_eq_true, List.any_eq_true, decide_eq_true_eq] at heval
  obtain ⟨⟨⟨hschema, hschema₁⟩, hschema₂⟩, hmembers⟩ := heval
  have hreach : (((a.after (.pushTable ⟨1⟩ { name := "items", aliasName := some "goods" })).after
      (.group 2 "stock" ["items", "users"])).after
        (.group 2 "stock" ["items", "goods"])).Reachable :=
    .step (.step (.step (.build ha) hschema) hschema₁) hschema₂
  exact ⟨a, ha, hreach, hreach.partitioned_groups, hmembers⟩

end Catalog
