import Catalog.Assembly.TableGroup
import Catalog.Proofs.Mirror.Links

/-!
Tables know their groups, whatever is inserted.
-/
namespace Catalog

variable {db : Database} {id : Id .schema}

namespace Database

/-- The groups of a database, in whichever schema they are. -/
def HasGroup (db : Database) (g : TableGroup) : Prop :=
  ∃ s ∈ db.schemas, g ∈ s.tableGroups

theorem grouped_iff (db : Database) : db.Grouped ↔ ∀ s ∈ db.schemas, ∀ t ∈ s.tables,
    (t.group.isSome = true ↔ ∃ g, db.HasGroup g ∧ t.id ∈ g.tables) := by
  unfold Grouped HasGroup
  apply forall₂_congr
  intro s _
  apply forall₂_congr
  intro t _
  apply iff_congr Iff.rfl
  constructor
  · rintro ⟨s', hs', g, hg, ht⟩
    exact ⟨g, ⟨s', hs', hg⟩, ht⟩
  · rintro ⟨g, ⟨s', hs', hg⟩, ht⟩
    exact ⟨s', hs', g, hg, ht⟩

theorem hasGroup_insert {e : Entity} {g : TableGroup} (hid : ∃ s ∈ db.schemas, s.id = id) :
    (db.updateSchema id (·.insert e)).HasGroup g ↔ db.HasGroup g ∨ e = .tableGroup g := by
  have hinsert : ∀ s : Schema, g ∈ (s.insert e).tableGroups ↔
      g ∈ s.tableGroups ∨ e = .tableGroup g := by
    intro s
    cases e <;> simp [Schema.insert, eq_comm]
  constructor
  · rintro ⟨s', hs', hg⟩
    obtain ⟨s, hs, rfl⟩ := mem_updateSchema.mp hs'
    split at hg
    · rcases (hinsert s).mp hg with hg | hg
      · exact .inl ⟨s, hs, hg⟩
      · exact .inr hg
    · exact .inl ⟨s, hs, hg⟩
  · rintro (⟨s, hs, hg⟩ | rfl)
    · refine ⟨_, mem_updateSchema.mpr ⟨s, hs, rfl⟩, ?_⟩
      split
      · exact (hinsert s).mpr (.inl hg)
      · exact hg
    · obtain ⟨s, hs, hsid⟩ := hid
      refine ⟨_, mem_updateSchema.mpr ⟨s, hs, rfl⟩, ?_⟩
      rw [if_pos hsid]
      exact (hinsert s).mpr (.inr rfl)

theorem mem_tables_updateSchema {e : Entity} {s' : Schema} {t : Table}
    (hs' : s' ∈ (db.updateSchema id (·.insert e)).schemas) (ht : t ∈ s'.tables) :
    (∃ s ∈ db.schemas, t ∈ s.tables) ∨ e = .table t := by
  obtain ⟨s, hs, rfl⟩ := mem_updateSchema.mp hs'
  split at ht
  · rcases Schema.mem_tables_insert.mp ht with ht | ht
    · exact .inl ⟨s, hs, ht⟩
    · exact .inr ht
  · exact .inl ⟨s, hs, ht⟩

/-- A new table is in no group, and no other entity but a group changes that of a table. -/
theorem Grouped.insert {e : Entity} (h : db.Grouped) (hid : ∃ s ∈ db.schemas, s.id = id)
    (hgroup : ∀ g, e ≠ .tableGroup g)
    (hnew : ∀ t, e = .table t → t.group = none ∧ ∀ g, db.HasGroup g → t.id ∉ g.tables) :
    (db.updateSchema id (·.insert e)).Grouped := by
  rw [grouped_iff] at h ⊢
  intro s' hs' t ht
  simp only [hasGroup_insert hid, hgroup, or_false]
  rcases mem_tables_updateSchema hs' ht with ⟨s, hs, ht⟩ | he
  · exact h s hs t ht
  · obtain ⟨hnone, hout⟩ := hnew t he
    rw [hnone]
    constructor
    · rintro ⟨⟩
    · rintro ⟨g, hg, hmem⟩
      exact absurd hmem (hout g hg)

theorem hasGroup_relink {f : Table → Table} {g : Enum → Enum} {group : TableGroup} :
    (db.relink f g).HasGroup group ↔ db.HasGroup group := by
  unfold HasGroup
  constructor
  · rintro ⟨s', hs', hg⟩
    obtain ⟨s, hs, rfl⟩ := mem_relink.mp hs'
    exact ⟨s, hs, hg⟩
  · rintro ⟨s, hs, hg⟩
    exact ⟨_, mem_relink.mpr ⟨s, hs, rfl⟩, hg⟩

theorem Grouped.relink {f : Table → Table} {g : Enum → Enum} (h : db.Grouped)
    (hf : ∀ t, (f t).id = t.id ∧ (f t).group = t.group) : (db.relink f g).Grouped := by
  rw [grouped_iff] at h ⊢
  intro s' hs' t' ht'
  obtain ⟨s, hs, rfl⟩ := mem_relink.mp hs'
  obtain ⟨t, ht, rfl⟩ := List.mem_map.mp ht'
  simp only [hasGroup_relink, (hf t).1, (hf t).2]
  exact h s hs t ht

/-- A new group takes its tables. -/
theorem Grouped.insert_group {g : TableGroup} (h : db.Grouped)
    (hid : ∃ s ∈ db.schemas, s.id = id) : (db.addTableGroup id g).Grouped := by
  let f (t : Table) : Table := if t.id ∈ g.tables then { t with group := some g.id } else t
  have hf : ∀ t, (f t).id = t.id := by
    intro t
    simp only [f]
    split <;> rfl
  have hid' : ∃ s ∈ (db.mapTables f).schemas, s.id = id := by
    obtain ⟨s, hs, hsid⟩ := hid
    exact ⟨_, List.mem_map.mpr ⟨s, hs, rfl⟩, hsid⟩
  have hgroups : ∀ group, (db.addTableGroup id g).HasGroup group ↔
      db.HasGroup group ∨ group = g := by
    intro group
    have hmap : (db.mapTables f).HasGroup group ↔ db.HasGroup group := by
      simp [HasGroup, mapTables]
    rw [← hmap, eq_comm, ← Entity.tableGroup.injEq]
    exact hasGroup_insert (e := .tableGroup g) hid'
  rw [grouped_iff] at h ⊢
  intro s' hs' t' ht'
  obtain ⟨s₁, hs₁, ht₁⟩ | he := mem_tables_updateSchema (e := .tableGroup g) hs' ht'
  · obtain ⟨s, hs, rfl⟩ := List.mem_map.mp hs₁
    obtain ⟨t, ht, rfl⟩ : ∃ t ∈ s.tables, f t = t' := List.mem_map.mp ht₁
    have hold := h s hs t ht
    simp only [hgroups, hf]
    by_cases hin : t.id ∈ g.tables
    · have hsome : (f t).group.isSome = true := by simp [f, hin]
      exact ⟨fun _ => ⟨g, .inr rfl, hin⟩, fun _ => hsome⟩
    · have hkeep : f t = t := if_neg hin
      rw [hkeep, hold]
      constructor
      · rintro ⟨group, hg, hmem⟩
        exact ⟨group, .inl hg, hmem⟩
      · rintro ⟨group, hg | rfl, hmem⟩
        · exact ⟨group, hg, hmem⟩
        · exact absurd hmem hin
  · cases he

end Database

end Catalog
