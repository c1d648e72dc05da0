import Catalog.Proofs.Integrity.Reach
import Catalog.Proofs.Store.Access
import Catalog.Store.Lookup

/-!
Looking things up in the store of a tree: every identifier that is followed leads to a record, and
what is found is what the tree has under the same name.
-/
namespace Catalog

namespace Database

variable {db : Database} {s : Schema} {t : Table}

theorem map_key_rows (db : Database) (k : Kind) (hk : k ≠ .database) :
    (db.rows k).map Stored.key = db.arena k := by
  cases k <;> first
    | exact absurd rfl hk
    | simp [rows, Schema.rows, arena, tables, fields, indexes, indexColumns, enums, enumValues,
        refs, endpoints, tags, tableGroups, List.map_flatMap, List.flatMap_assoc,
        Function.comp_def, Stored.key, Schema.stored, Table.stored, Field.stored, Index.stored,
        IndexColumn.stored, Enum.stored, EnumValue.stored, Ref.stored, Endpoint.stored,
        TableGroup.stored, Tag.stored]

theorem told_rows (hn : ∀ k, (db.arena k).Nodup) (k : Kind) : db.rows.Told k := by
  by_cases hk : k = .database
  · subst hk
    have hnone : db.rows .database = [] := flatMap_nothing db.schemas
    rw [Rows.Told, hnone]
    exact .nil
  · rw [Rows.Told, map_key_rows db k hk]
    exact hn k

theorem mem_rows_schema (hs : s ∈ db.schemas) : s.stored db.id ∈ db.rows .schema :=
  List.mem_map.mpr ⟨s, hs, rfl⟩

theorem mem_rows_table (hs : s ∈ db.schemas) (ht : t ∈ s.tables) :
    t.stored s.id ∈ db.rows .table :=
  List.mem_flatMap.mpr ⟨s, hs, List.mem_map.mpr ⟨t, ht, rfl⟩⟩

theorem mem_rows_field (hs : s ∈ db.schemas) (ht : t ∈ s.tables) {f : Field} (hf : f ∈ t.fields) :
    f.stored t.id ∈ db.rows .field :=
  List.mem_flatMap.mpr ⟨s, hs, List.mem_flatMap.mpr ⟨t, ht, List.mem_map.mpr ⟨f, hf, rfl⟩⟩⟩

theorem mem_rows_enum (hs : s ∈ db.schemas) {e : Enum} (he : e ∈ s.enums) :
    e.stored s.id ∈ db.rows .enum :=
  List.mem_flatMap.mpr ⟨s, hs, List.mem_map.mpr ⟨e, he, rfl⟩⟩

theorem mem_rows_ref (hs : s ∈ db.schemas) {r : Ref} (hr : r ∈ s.refs) :
    r.stored s.id ∈ db.rows .ref :=
  List.mem_flatMap.mpr ⟨s, hs, List.mem_map.mpr ⟨r, hr, rfl⟩⟩

theorem mem_rows_endpoint (hs : s ∈ db.schemas) {r : Ref} (hr : r ∈ s.refs) {e : Endpoint}
    (he : e ∈ r.endpoints) : e.stored r.id ∈ db.rows .endpoint :=
  List.mem_flatMap.mpr ⟨s, hs, List.mem_flatMap.mpr ⟨r, hr, List.mem_map.mpr ⟨e, he, rfl⟩⟩⟩

theorem mem_rows_tableGroup (hs : s ∈ db.schemas) {g : TableGroup} (hg : g ∈ s.tableGroups) :
    g.stored s.id ∈ db.rows .tableGroup :=
  List.mem_flatMap.mpr ⟨s, hs, List.mem_map.mpr ⟨g, hg, rfl⟩⟩

theorem mem_rows_tag (hs : s ∈ db.schemas) {g : Tag} (hg : g ∈ s.tags) :
    g.stored s.id ∈ db.rows .tag :=
  List.mem_flatMap.mpr ⟨s, hs, List.mem_map.mpr ⟨g, hg, rfl⟩⟩

end Database

namespace Store

open Access

variable {a : Assembly} (hn : ∀ k, (a.database.arena k).Nodup)
include hn

section Lists

variable {k : Kind} {α : Type} {l : List α} {f : α → Stored k}

theorem ends_row_layout {r : Stored k} (hr : r ∈ a.database.rows k) :
    Ends (row r.key) a.layout (.ok r) a.layout := by
  change Ends _ (a.layout.withRows a.database.rows) _ (a.layout.withRows a.database.rows)
  exact ends_row (Database.told_rows hn k) hr

variable (hl : ∀ x ∈ l, f x ∈ a.database.rows k)
include hl

theorem ends_find? (p : Stored k → Bool) :
    Ends (find? (l.map fun x => (f x).key) p) a.layout
      (.ok ((l.find? fun x => p (f x)).map fun x => (f x).key)) a.layout :=
  ends_findM? fun x hx => (ends_row_layout hn (hl x hx)).bind (ends_pure (p (f x)) _)

theorem ends_rows :
    Ends (rows (l.map fun x => (f x).key)) a.layout (.ok (l.map f)) a.layout := by
  induction l with
  | nil => exact ends_pure [] _
  | cons x l ih =>
    rw [rows, List.map_cons, List.mapM_cons]
    apply (ends_row_layout hn (hl x List.mem_cons_self)).bind
    exact (ih fun y hy => hl y (List.mem_cons_of_mem x hy)).bind (ends_pure _ _)

end Lists

variable {s : Schema} {t : Table}

theorem ends_findSchema (name : String) : Ends (findSchema name) a.layout
    (.ok ((a.database.findSchema? name).map (·.id))) a.layout :=
  Ends.get (ends_find? hn (fun _ hs => Database.mem_rows_schema hs) _)

theorem ends_findTable (schema : Option String) (table : String) :
    Ends (findTable schema table) a.layout
      ((a.database.locate schema table).map (·.map (·.2.id))) a.layout := by
  have hfind := ends_findSchema hn (schema.getD a.database.config.defaultSchemaName)
  apply Ends.get
  unfold Database.locate
  dsimp only
  cases hs : a.database.findSchema? (schema.getD a.database.config.defaultSchemaName) with
  | none =>
    rw [hs] at hfind
    exact hfind.bind (ends_throw _ _)
  | some s =>
    rw [hs] at hfind
    have hmem : s ∈ a.database.schemas := List.mem_of_find?_eq_some hs
    have htable := ends_find? hn (fun _ ht => Database.mem_rows_table hmem ht)
      (fun t : Stored.Table => t.isNamed table)
    simp only [Except.map, Option.map_map]
    exact hfind.bind ((ends_row_layout hn (Database.mem_rows_schema hmem)).bind htable)

theorem ends_qualifiedTableName (hs : s ∈ a.database.schemas) (ht : t ∈ s.tables) :
    Ends (qualifiedTableName t.id) a.layout (.ok (qualifiedName (some s.name) t.name))
      a.layout := by
  apply (ends_row_layout hn (Database.mem_rows_table hs ht)).bind
  exact (ends_row_layout hn (Database.mem_rows_schema hs)).bind (ends_pure _ _)

theorem ends_resolveTable (schema : Option String) (table : String) (token : Span) :
    Ends (resolveTable schema table token) a.layout
      ((a.database.resolveTable schema table token).map (·.2.id)) a.layout := by
  have hfind := (ends_findTable hn schema table).adapt (·.blamedOn token)
  unfold resolveTable Database.resolveTable
  cases hloc : a.database.locate schema table with
  | error r =>
    rw [hloc] at hfind
    exact hfind.bind_error _
  | ok found =>
    rw [hloc] at hfind
    cases found with
    | none => exact hfind.bind (ends_throw _ _)
    | some found => exact hfind.bind (ends_pure _ _)

theorem ends_findField (hs : s ∈ a.database.schemas) (ht : t ∈ s.tables) (name : String) :
    Ends (findField (t.stored s.id) name) a.layout
      (.ok ((t.findField? name).map (·.stored t.id))) a.layout := by
  have hfind := ends_find? hn (fun _ hf => Database.mem_rows_field hs ht hf)
    (fun f : Stored.Field => f.name = name)
  change Ends _ _ (.ok ((t.findField? name).map (·.id))) _ at hfind
  cases hf : t.findField? name with
  | none =>
    rw [hf] at hfind
    exact hfind.bind (ends_pure none _)
  | some f =>
    rw [hf] at hfind
    have hrow := Database.mem_rows_field hs ht (List.mem_of_find?_eq_some hf)
    exact hfind.bind ((ends_row_layout hn hrow).bind (ends_pure _ _))

theorem ends_resolveFields (hs : s ∈ a.database.schemas) (ht : t ∈ s.tables) (token : Span)
    (earlier : List (Id .field)) (names : List String) :
    Ends (resolveFields t.id (t.stored s.id) token earlier names) a.layout
      (Catalog.resolveFields s t token earlier names) a.layout := by
  induction names generalizing earlier with
  | nil => exact ends_pure [] _
  | cons name names ih =>
    apply (ends_findField hn hs ht name).bind
    rw [resolveFields_cons]
    cases t.findField? name with
    | none => exact (ends_qualifiedTableName hn hs ht).bind (ends_throw _ _)
    | some f =>
      simp only [Option.map_some, Field.stored]
      split
      · exact ends_throw _ _
      · rw [bind_pure_comp]
        exact (ih (f.id :: earlier)).map (f.id :: ·)

theorem ends_resolveEndpoint (refToken : Span) (d : Decl.Endpoint) :
    Ends (resolveEndpoint refToken d) a.layout (a.database.resolveEndpoint refToken d)
      a.layout := by
  unfold resolveEndpoint Database.resolveEndpoint
  dsimp only
  have htable := ends_resolveTable hn d.schemaName d.tableName (d.token.orElse refToken)
  cases hfound : a.database.resolveTable d.schemaName d.tableName (d.token.orElse refToken) with
  | error r =>
    rw [hfound] at htable
    exact htable.bind_error _
  | ok found =>
    rw [hfound] at htable
    obtain ⟨s, t⟩ := found
    obtain ⟨hs, ht⟩ := Database.mem_of_locate (Database.locate_of_resolveTable hfound)
    apply htable.bind
    apply (ends_row_layout hn (Database.mem_rows_table hs ht)).bind
    exact (ends_resolveFields hn hs ht _ [] d.fieldNames).map (Resolved.mk d t.id)

theorem ends_resolveRef (d : Decl.Ref) :
    Ends (resolveRef d) a.layout (a.database.resolveRef d) a.layout := by
  unfold resolveRef Database.resolveRef
  rcases d.endpoints with _ | ⟨first, _ | ⟨second, _ | ⟨third, rest⟩⟩⟩
  · exact ends_throw _ _
  · exact ends_throw _ _
  · have hfirst := ends_resolveEndpoint hn d.token first
    have hsecond := ends_resolveEndpoint hn d.token second
    dsimp only
    generalize a.database.resolveEndpoint d.token first = e₁ at hfirst ⊢
    generalize a.database.resolveEndpoint d.token second = e₂ at hsecond ⊢
    rcases e₁ with r | e₁
    · exact hfirst.bind_error _
    apply hfirst.bind
    rcases e₂ with r | e₂
    · exact hsecond.bind_error _
    apply hsecond.bind
    dsimp only [bind, Except.bind]
    split
    · exact ends_throw _ _
    split
    · exact ends_throw _ _
    · exact ends_pure _ _
  · exact ends_throw _ _

theorem ends_resolveMembers (groupToken : Span) (found : List Table) (ms : List Decl.Member) :
    Ends (resolveMembers groupToken (found.map (·.id)) ms) a.layout
      ((a.database.resolveMembers groupToken found ms).map (·.map (·.id))) a.layout := by
  induction ms generalizing found with
  | nil => exact ends_pure _ _
  | cons m ms ih =>
    have htable := ends_resolveTable hn m.schemaName m.name (m.token.orElse groupToken)
    unfold resolveMembers Database.resolveMembers
    cases hfound : a.database.resolveTable m.schemaName m.name (m.token.orElse groupToken) with
    | error r =>
      rw [hfound] at htable
      exact htable.bind_error _
    | ok st =>
      rw [hfound] at htable
      apply htable.bind
      have hpush : pushNew (found.map (·.id)) st.2.id
          = (if found.any (·.id = st.2.id) then found else found ++ [st.2]).map (·.id) := by
        simp only [pushNew, List.mem_map, List.any_eq_true, decide_eq_true_eq]
        split <;> simp
      rw [hpush]
      exact ih _

end Store

end Catalog
