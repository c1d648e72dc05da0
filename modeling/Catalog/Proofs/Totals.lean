import Catalog.Proofs.Flattening
import Catalog.Render

/-!
The summary against the flat model. The rows count what each schema lists, the buckets hold what has
been filed: no entity stands in two lists, so that the columns add up to the buckets.
-/
namespace Catalog

/-- The row of a schema as the records of the schema and of its tables tell it. -/
def Flat.Model.row? (m : Flat.Model) (i : Id .schema) : Option SummaryRow := do
  let s ← m.schemas.get? i
  let tables ← s.tableIds.mapM m.tables.get?
  pure
    { schema := s.name
      aliasName := s.aliasName
      tables := s.tableIds.length
      fields := (tables.map (·.fieldIds.length)).sum
      enums := s.enumIds.length
      refs := s.refIds.length
      tags := s.tagIds.length
      tableGroups := s.tableGroupIds.length }

/-- The cells below a word of the header are the numerals of numbers that make up the total. -/
def SummaryRow.AddUp (cells : List (List String)) (word : String) (total : Nat) : Prop :=
  ∃ ns : List Nat, (cells.map fun row => (header.zip row).lookup word) =
    ns.map (fun n => some (toString n)) ∧ ns.sum = total

/-- There is one row for each schema, in their order, and the columns add up to the buckets. -/
structure Flat.Model.SummedUpBy (m : Flat.Model) (cells : List (List String)) : Prop where
  rows : ∃ d, m.database.entries.map (·.2) = [d] ∧
    List.Forall₂ (fun i row => (m.row? i).map (·.cells) = some row) d.schemaIds cells
  tables : SummaryRow.AddUp cells "Tables" m.tables.size
  fields : SummaryRow.AddUp cells "Fields" m.fields.size
  enums : SummaryRow.AddUp cells "Enums" m.enums.size
  refs : SummaryRow.AddUp cells "Refs" m.refs.size
  tags : SummaryRow.AddUp cells "Tags" m.tags.size
  tableGroups : SummaryRow.AddUp cells "Groups" m.tableGroups.size

namespace Database

/-- A column adds up to what is filed, where the rows count the entities that are filed. -/
theorem addUp_summary {k : Kind} {α χ : Type} {db : Database} {b : Bucket k α} {word : String}
    {count : SummaryRow → Nat} {items : Schema → List χ} {id : χ → Id k}
    (hword : ∀ r : SummaryRow,
      (SummaryRow.header.zip r.cells).lookup word = some (toString (count r)))
    (hcount : ∀ s : Schema, count s.summary = (items s).length)
    (hfiled : b.ids.Perm ((db.schemas.flatMap items).map id)) :
    SummaryRow.AddUp (db.summary.map (·.cells)) word b.size := by
  refine ⟨db.summary.map count, ?_, ?_⟩
  · simp only [List.map_map, Function.comp_def, hword]
  · have hsize : b.size = (db.schemas.flatMap items).length := by
      have hlength := hfiled.length_eq
      rw [Bucket.ids, List.length_map, List.length_map] at hlength
      exact hlength
    rw [hsize, List.length_flatMap, summary, List.map_map]
    simp only [Function.comp_def, hcount]

variable {db : Database} (hn : ∀ k, (db.arena k).Nodup)

include hn

theorem row?_normalize {s : Schema} (hs : s ∈ db.schemas) :
    db.normalize.row? s.id = some s.summary := by
  have htables : (s.tables.map (·.id)).mapM db.normalize.tables.get? =
      some (s.tables.map (·.flat s.id)) :=
    mapM_map_eq_some fun t ht => get?_table hn hs ht
  rw [Flat.Model.row?, get?_schema hn hs]
  simp [Schema.flat, htables, Schema.summary, Table.flat, Schema.fields, List.length_flatMap,
    Function.comp_def]

theorem summedUp_normalize : db.normalize.SummedUpBy (db.summary.map (·.cells)) := by
  have hkeys := keys_normalize hn
  have hfields : (db.normalize.keys .field).Perm
      ((db.schemas.flatMap (·.fields)).map (·.id)) := by
    have hflat : db.fields = db.schemas.flatMap (·.fields) := List.flatMap_assoc
    rw [← hflat]
    exact hkeys .field
  refine
    { rows := ⟨db.flat, rfl, ?_⟩
      tables := addUp_summary (fun _ => rfl) (fun _ => rfl) (hkeys .table)
      fields := addUp_summary (fun _ => rfl) (fun _ => rfl) hfields
      enums := addUp_summary (fun _ => rfl) (fun _ => rfl) (hkeys .enum)
      refs := addUp_summary (fun _ => rfl) (fun _ => rfl) (hkeys .ref)
      tags := addUp_summary (fun _ => rfl) (fun _ => rfl) (hkeys .tag)
      tableGroups := addUp_summary (fun _ => rfl) (fun _ => rfl) (hkeys .tableGroup) }
  rw [Database.flat, summary, List.map_map, List.forall₂_map_left_iff, List.forall₂_map_right_iff]
  refine List.forall₂_same.mpr fun s hs => ?_
  rw [row?_normalize hn hs]
  rfl

end Database

namespace Assembly

variable {a : Assembly}

/-- The summary agrees with the flat model. -/
theorem Reachable.summedUp_summary (h : a.Reachable) (hne : a.database.schemas ≠ [])
    (layout : Json.Layout) :
    ∃ cells, a.database.render .summary layout = Text.grid SummaryRow.header cells ∧
      a.database.normalize.SummedUpBy cells := by
  refine ⟨_, ?_, Database.summedUp_normalize h.sound.nodup_arena⟩
  have hrows : a.database.summary.isEmpty = false := by
    simpa [Database.summary] using hne
  rw [Database.render, SummaryRow.tabulate, if_neg (by simp [hrows])]

theorem summedUp_summary_orders : ∃ a, build .orders {} = .ok a ∧ a.Reachable ∧
    a.database.schemas ≠ [] ∧
    ∃ cells, a.database.render .summary .compact = Text.grid SummaryRow.header cells ∧
      a.database.normalize.SummedUpBy cells := by
  have hbuilt : (build .orders {}).toOption.any (·.database.schemas ≠ []) = true := by
    decide +kernel
  obtain ⟨a, ha, hne⟩ := exists_ok_of_any hbuilt
  have hreach : a.Reachable := .build ha
  have hsome : a.database.schemas ≠ [] := of_decide_eq_true hne
  exact ⟨a, ha, hreach, hsome, hreach.summedUp_summary hsome .compact⟩

end Assembly

end Catalog
