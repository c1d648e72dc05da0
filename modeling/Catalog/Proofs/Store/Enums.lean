import Catalog.Proofs.EnumSymmetry
import Catalog.Proofs.Store.Insertion
import Catalog.Store.Build

/-!
Binding enums in a store. The store binds them in the order of their identifiers and the tree in its
own, which makes no difference, since no field is of the type of two enums.
-/
namespace Catalog

/-! The order of binding. -/

namespace Database

variable {db : Database} {i j : Id .enum}

theorem nodup_arena_bindEnum (hn : ∀ k, (db.arena k).Nodup) (i : Id .enum) (k : Kind) :
    ((db.bindEnum i).arena k).Nodup := by
  rw [arena_eq_of_numbers (numbers_bindEnum i k)]
  exact hn k

theorem matchesEnum_bindEnum (hn : ∀ k, (db.arena k).Nodup) (i j : Id .enum) (f : Field) :
    (db.bindEnum i).matchesEnum j f = db.matchesEnum j f := by
  rw [Bool.eq_iff_iff, matchesEnum_iff_typedBy (nodup_arena_bindEnum hn i .enum),
    matchesEnum_iff_typedBy (hn .enum), typedBy_bindEnum]

theorem matchesEnum_linkEnum (i j : Id .enum) (f : Field) :
    db.matchesEnum j (db.linkEnum i f) = db.matchesEnum j f := by
  unfold matchesEnum
  rw [linkEnum_info]

theorem linkEnum_bindEnum (hn : ∀ k, (db.arena k).Nodup) (i j : Id .enum) :
    (db.bindEnum i).linkEnum j = db.linkEnum j := by
  funext f
  rw [linkEnum, linkEnum, matchesEnum_bindEnum hn]

theorem collectFields_bindEnum (hn : ∀ k, (db.arena k).Nodup) (i j : Id .enum) :
    (db.bindEnum i).collectFields j = db.collectFields j := by
  have hids : ((db.bindEnum i).matchingFields j).map (·.id) = (db.matchingFields j).map (·.id) := by
    rw [matchingFields, matchingFields, fields_bindEnum, List.filter_map, List.map_map]
    have hmatch : (db.bindEnum i).matchesEnum j ∘ db.linkEnum i = db.matchesEnum j := by
      funext f
      rw [Function.comp_apply, matchesEnum_bindEnum hn, matchesEnum_linkEnum]
    have hid : (fun f : Field => f.id) ∘ db.linkEnum i = fun f => f.id := funext linkEnum_id
    rw [hmatch, hid]
  funext e
  rw [collectFields, collectFields, hids]

/-- A field that is of the type of two enums would make them one. -/
theorem linkEnum_comm (hn : ∀ k, (db.arena k).Nodup) (hnamed : db.Named) (hij : i ≠ j) (f : Field) :
    db.linkEnum j (db.linkEnum i f) = db.linkEnum i (db.linkEnum j f) := by
  have hone : ¬ (db.matchesEnum i f = true ∧ db.matchesEnum j f = true) := by
    rintro ⟨hi, hj⟩
    exact hij (hnamed.typedBy_unique ((matchesEnum_iff_typedBy (hn .enum)).mp hi)
      ((matchesEnum_iff_typedBy (hn .enum)).mp hj))
  rw [linkEnum, linkEnum.eq_def db i (db.linkEnum j f), matchesEnum_linkEnum, matchesEnum_linkEnum]
  unfold linkEnum
  split <;> split <;> first | rfl | tauto

theorem collectFields_comm (hij : i ≠ j) (e : Enum) :
    db.collectFields j (db.collectFields i e) = db.collectFields i (db.collectFields j e) := by
  rw [collectFields, collectFields.eq_def db i (db.collectFields j e), collectFields_id,
    collectFields_id]
  unfold collectFields
  split <;> split <;> first | rfl | (subst_vars; exact absurd rfl hij)

theorem bindEnum_comm (hn : ∀ k, (db.arena k).Nodup) (hnamed : db.Named) (i j : Id .enum) :
    (db.bindEnum i).bindEnum j = (db.bindEnum j).bindEnum i := by
  by_cases hij : i = j
  · rw [hij]
  have htwice : ∀ i j, (db.bindEnum i).bindEnum j = db.relink
      (fun t => { t with fields := t.fields.map (db.linkEnum j ∘ db.linkEnum i) })
      (db.collectFields j ∘ db.collectFields i) := by
    intro i j
    rw [bindEnum_eq (db.bindEnum i), linkEnum_bindEnum hn, collectFields_bindEnum hn, bindEnum_eq]
    simp only [relink, List.map_map, Function.comp_def]
  have hlink : db.linkEnum j ∘ db.linkEnum i = db.linkEnum i ∘ db.linkEnum j :=
    funext (linkEnum_comm hn hnamed hij)
  have hcollect : db.collectFields j ∘ db.collectFields i
      = db.collectFields i ∘ db.collectFields j := funext (collectFields_comm hij)
  rw [htwice, htwice, hlink, hcollect]

/-- Enums can be bound in any order. -/
theorem foldl_bindEnum_of_perm {is js : List (Id .enum)} (hperm : is.Perm js)
    (hn : ∀ k, (db.arena k).Nodup) (hnamed : db.Named) :
    is.foldl bindEnum db = js.foldl bindEnum db := by
  induction hperm generalizing db with
  | nil => rfl
  | cons i _ ih => exact ih (nodup_arena_bindEnum hn i) (hnamed.bindEnum i)
  | swap i j is => rw [List.foldl_cons, List.foldl_cons, List.foldl_cons, List.foldl_cons,
      bindEnum_comm hn hnamed]
  | trans _ _ ih₁ ih₂ => exact (ih₁ hn hnamed).trans (ih₂ hn hnamed)

end Database

/-! Linking fields in a store. -/

/-- The record of a field that is linked to an enum. -/
def Stored.Field.typed (i : Id .enum) (f : Stored.Field) : Stored.Field :=
  { f with enumId := some i }

/-- The record of an enum that collects some fields. -/
def Stored.Enum.collecting (fs : List (Id .field)) (e : Stored.Enum) : Stored.Enum :=
  { e with fields := fs.foldl pushNew e.fields }

namespace Rows

open Stored.Field Stored.Enum

/-- Records where an enum is linked to some fields. -/
def link (ρ : Rows) (i : Id .enum) (fs : List (Id .field)) : Rows :=
  (ρ.alterEach fs (typed i)).alter i (collecting fs)

variable (ρ : Rows) (i : Id .enum)

theorem link_nil : ρ.link i [] = ρ := by
  funext k
  cases k <;> simp [link, alter, alterEach, Function.update, collecting]

theorem link_cons (f : Id .field) (fs : List (Id .field)) :
    (ρ.link i [f]).link i fs = ρ.link i (f :: fs) := by
  funext k
  cases k <;> simp [link, alter, alterEach, Function.update]
  case field =>
    intro r _
    by_cases hr : r.key = f
    · rw [if_pos hr, if_pos (show r.key = f ∨ r.key ∈ fs from .inl hr)]
      exact ite_self _
    · simp [hr]
  case enum =>
    intro r _
    by_cases hr : r.key = i
    · rw [if_pos hr, if_pos hr, if_pos (show Stored.key (collecting [f] r) = i from hr)]
      rfl
    · rw [if_neg hr, if_neg hr, if_neg hr]

theorem map_key_link (fs : List (Id .field)) (k : Kind) :
    (ρ.link i fs k).map Stored.key = (ρ k).map Stored.key := by
  rw [link, map_key_alter (k := .enum) _ i (f := collecting fs) fun _ => rfl]
  exact ρ.map_key_alterEach (k := .field) fs (f := typed i) (fun _ => rfl) k

end Rows

namespace Store

open Access

theorem ends_linkField (st : Store) {ρ : Rows} (hfield : ρ.Told .field) (henum : ρ.Told .enum)
    {i : Id .enum} (hi : i ∈ (ρ .enum).map Stored.key) {f : Id .field}
    (hf : f ∈ (ρ .field).map Stored.key) :
    Ends (linkField i f) (st.withRows ρ) (.ok ()) (st.withRows (ρ.link i [f])) := by
  rw [Rows.link, ← Rows.alter_eq_alterEach]
  apply (ends_update hfield hf (f := Stored.Field.typed i) fun _ => rfl).seq
  exact @ends_update .enum st (ρ.alter f (Stored.Field.typed i)) i henum hi
    (Stored.Enum.collecting [f]) fun _ => rfl

theorem ends_linkFields (st : Store) {ρ : Rows} (hfield : ρ.Told .field) (henum : ρ.Told .enum)
    {i : Id .enum} (hi : i ∈ (ρ .enum).map Stored.key) {fs : List (Id .field)}
    (hfs : fs ⊆ (ρ .field).map Stored.key) :
    Ends (fs.forM (linkField i)) (st.withRows ρ) (.ok ()) (st.withRows (ρ.link i fs)) := by
  induction fs generalizing ρ with
  | nil =>
    rw [Rows.link_nil]
    exact ends_pure () _
  | cons f fs ih =>
    obtain ⟨hf, hfs⟩ := List.cons_subset.mp hfs
    have hlink := ends_linkField st hfield henum hi hf
    have hkeys := ρ.map_key_link i [f]
    rw [Rows.Told, ← hkeys] at hfield henum
    rw [← hkeys] at hi hfs
    rw [← Rows.link_cons]
    exact hlink.seq (ih hfield henum hi hfs)

variable {a : Assembly} (hn : ∀ k, (a.database.arena k).Nodup) {s : Schema} {e : Enum}
include hn

theorem ends_rows_of_kind (k : Kind) :
    Ends (rows ((a.database.rows k).map Stored.key)) a.layout (.ok (a.database.rows k))
      a.layout := by
  have hrows := ends_rows (k := k) (f := fun r => r) hn fun _ hr => hr
  rw [List.map_id'] at hrows
  exact hrows

theorem matchesEnum_of_mem (hs : s ∈ a.database.schemas) (he : e ∈ s.enums) :
    a.database.matchesEnum e.id
      = fun f => f.isOfEnum a.database.config.defaultSchemaName s.name e.name := by
  funext f
  rw [Database.matchesEnum, Database.schemaOfEnum?_of_mem (hn .enum) hs he,
    Database.enum?_of_mem (hn .enum) (List.mem_flatMap.mpr ⟨s, hs, he⟩)]

/-- The fields that an enum is bound to, as they are stored. -/
theorem map_id_filter_rows (hs : s ∈ a.database.schemas) (he : e ∈ s.enums) :
    ((a.database.rows .field).filter fun f : Stored.Field =>
        f.isOfEnum a.database.config.defaultSchemaName s.name e.name).map (·.id)
      = (a.database.matchingFields e.id).map (·.id) := by
  simp only [Database.matchingFields, Database.fields, Database.tables, Database.rows,
    Schema.rows, List.filter_flatMap, List.filter_map, List.map_flatMap, List.flatMap_assoc,
    List.map_map, Function.comp_def, matchesEnum_of_mem hn hs he]
  rfl

theorem id_mem_matchingFields_iff (hs : s ∈ a.database.schemas) (he : e ∈ s.enums)
    {r : Stored.Field} (hr : r ∈ a.database.rows .field) :
    r.id ∈ (a.database.matchingFields e.id).map (·.id)
      ↔ r.isOfEnum a.database.config.defaultSchemaName s.name e.name = true := by
  rw [← map_id_filter_rows hn hs he, List.mem_map]
  constructor
  · rintro ⟨r', hr', hid⟩
    obtain ⟨hr', hmatch⟩ := List.mem_filter.mp hr'
    exact List.inj_on_of_nodup_map (Database.told_rows hn .field) hr' hr hid ▸ hmatch
  · exact fun hmatch => ⟨r, List.mem_filter.mpr ⟨hr, hmatch⟩, rfl⟩

theorem rows_bindEnum (hs : s ∈ a.database.schemas) (he : e ∈ s.enums) :
    (a.database.bindEnum e.id).rows
      = a.database.rows.link e.id ((a.database.matchingFields e.id).map (·.id)) := by
  let ids := (a.database.matchingFields e.id).map (·.id)
  let link (f : Stored.Field) : Stored.Field :=
    if f.isOfEnum a.database.config.defaultSchemaName s.name e.name then f.typed e.id else f
  let collect (v : Stored.Enum) : Stored.Enum := if v.id = e.id then v.collecting ids else v
  have hlink : ∀ t f, (a.database.linkEnum e.id f).stored t = link (f.stored t) := by
    intro t f
    rw [Database.linkEnum, matchesEnum_of_mem hn hs he]
    exact apply_ite (Field.stored t) _ _ _
  have hcollect : ∀ o v, (a.database.collectFields e.id v).stored o = collect (v.stored o) :=
    fun o v => apply_ite (Enum.stored o) _ _ _
  have hbind : a.database.bindEnum e.id = (a.database.mapFields (a.database.linkEnum e.id)).mapEnums
      (a.database.collectFields e.id) := rfl
  rw [hbind, Database.rows_mapEnums _ hcollect Database.collectFields_id,
    Database.rows_mapFields _ hlink Database.linkEnum_id]
  · have hlinked : (a.database.rows .field).map link = (a.database.rows .field).map
        fun r : Stored.Field => if r.id ∈ ids then r.typed e.id else r := by
      apply List.map_congr_left
      intro r hr
      simp only [link, ids, id_mem_matchingFields_iff hn hs he hr]
    rw [hlinked, Rows.link, Rows.alterEach_eq]
    rfl
  · intro v
    rw [Database.collectFields]
    split <;> rfl

/-- Binding an enum looks through all schemas for fields of its type. -/
theorem ends_bindEnum (hs : s ∈ a.database.schemas) (he : e ∈ s.enums) :
    Ends (bindEnum e.id) a.layout (.ok (a.database.matchingFields e.id).length)
      (Assembly.layout ⟨a.database.bindEnum e.id, a.ids⟩) := by
  have hschemas := ends_rows_of_kind hn .schema
  have htables := ends_rows_of_kind hn .table
  have hfields := ends_rows_of_kind hn .field
  rw [a.database.map_key_rows .schema (by decide)] at hschemas
  rw [← a.database.flatMap_tables_rows] at htables
  rw [← a.database.flatMap_fields_rows] at hfields
  apply (ends_row_layout hn (Database.mem_rows_enum hs he)).bind
  apply (ends_row_layout hn (Database.mem_rows_schema hs)).bind
  apply Ends.get
  apply hschemas.bind
  apply htables.bind
  apply hfields.bind
  have hids := map_id_filter_rows hn hs he
  have hmem : e.id ∈ (a.database.rows .enum).map Stored.key :=
    List.mem_map.mpr ⟨_, Database.mem_rows_enum hs he, rfl⟩
  have hsub : (a.database.matchingFields e.id).map (·.id)
      ⊆ (a.database.rows .field).map Stored.key := by
    rw [← hids]
    exact List.map_subset _ List.filter_sublist.subset
  have hlink := ends_linkFields a.layout (Database.told_rows hn .field)
    (Database.told_rows hn .enum) hmem hsub
  rw [← rows_bindEnum hn hs he, ← a.layout_eq (a.database.bindEnum e.id) rfl rfl
    (Database.schemaIds_of_heads (a.database.heads_bindEnum e.id)), ← hids, List.forM_eq_forM,
    List.forM_map] at hlink
  have hlength := congrArg List.length hids
  rw [List.length_map, List.length_map] at hlength
  rw [← hlength]
  exact hlink.seq (ends_pure _ _)

omit hn in
theorem exists_enum_of_mem {db : Database} {i : Id .enum} (hi : i ∈ db.arena .enum) :
    ∃ s ∈ db.schemas, ∃ e ∈ s.enums, e.id = i := by
  obtain ⟨e, he, rfl⟩ := List.mem_map.mp hi
  obtain ⟨s, hs, hes⟩ := List.mem_flatMap.mp he
  exact ⟨s, hs, e, hes, rfl⟩

theorem ends_bindEach {is : List (Id .enum)} (his : is ⊆ a.database.arena .enum) :
    Ends (forEach bindEnum is) a.layout (.ok ())
      (Assembly.layout ⟨is.foldl Database.bindEnum a.database, a.ids⟩) := by
  induction is generalizing a with
  | nil => exact ends_pure () _
  | cons i is ih =>
    obtain ⟨hi, hsub⟩ := List.cons_subset.mp his
    obtain ⟨s, hs, e, he, rfl⟩ := exists_enum_of_mem hi
    have hrest := ih (a := ⟨a.database.bindEnum e.id, a.ids⟩)
      (Database.nodup_arena_bindEnum hn e.id)
      (by rw [Database.arena_eq_of_numbers (Database.numbers_bindEnum e.id .enum)]; exact hsub)
    exact ((ends_bindEnum hn hs he).bind (ends_pure () _)).seq hrest

omit hn in
theorem ends_bindEnums (ha : a.Sound) : Ends bindEnums a.layout (.ok ())
    (Assembly.layout ⟨a.database.bindEnums, a.ids⟩) := by
  have hn := ha.nodup_arena
  have hperm : (a.layout.arena .enum).ids.Perm (a.database.arena .enum) :=
    a.database.map_key_rows .enum (by decide) ▸ Rows.ids_arena (Database.told_rows hn .enum)
  have hends := ends_bindEach hn hperm.subset
  rw [Database.foldl_bindEnum_of_perm hperm hn ha.named] at hends
  have hall : (a.database.arena .enum).foldl Database.bindEnum a.database
      = a.database.bindEnums := List.foldl_map
  rw [hall] at hends
  exact Ends.get hends

theorem ends_addEnum {id : Id .schema} (hid : a.HasSchema id)
    (hn' : ∀ k, ((a.database.place id (.enum e)).arena k).Nodup) :
    Ends (addEnum id (e.draft id)) a.layout (.ok e.id)
      (Assembly.layout ⟨a.database.addEnum id e, a.ids⟩) := by
  apply ends_placeEnum hn hid hn'
  apply Ends.get
  obtain ⟨s, hs, rfl⟩ := hid
  rcases a.database.commit_cases s.id (.enum e) with ⟨hafter, hplace⟩ | ⟨v, hv, hinsert, hplace⟩
  · have hconfig : (Assembly.layout ⟨a.database.place s.id (.enum e), a.ids⟩).config.enumBinding
        = .afterConstruction := hafter e rfl
    rw [show a.database.addEnum s.id e = _ from hplace]
    simp only [hconfig]
    exact ends_pure _ _
  · obtain rfl : e = v := Entity.enum.inj hv
    have hconfig : (Assembly.layout ⟨a.database.place s.id (.enum e), a.ids⟩).config.enumBinding
        = .onInsert := hinsert
    have hlisted : ∃ u ∈ (a.database.place s.id (.enum e)).schemas, e ∈ u.enums := by
      refine ⟨_, Database.mem_updateSchema.mpr ⟨_, Database.mem_relink.mpr ⟨s, hs, rfl⟩, rfl⟩, ?_⟩
      rw [if_pos rfl]
      exact List.mem_append_right _ List.mem_cons_self
    obtain ⟨u, hu, heu⟩ := hlisted
    rw [show a.database.addEnum s.id e = _ from hplace]
    simp only [hconfig]
    exact (ends_bindEnum (a := ⟨a.database.place s.id (.enum e), a.ids⟩) hn' hu heu).bind
      (ends_pure _ _)

omit hn in
theorem realizes_pushEnum (id : Id .schema) (d : Decl.Enum) :
    Realizes (Assembly.HasSchema id) (pushEnum id d) (Assembly.pushEnum id d) (·.id) := by
  intro a ha hid
  obtain ⟨s, hs⟩ := hid.schema?
  obtain ⟨hmem, rfl⟩ := Assembly.mem_schemas_schema? hs
  have hn := ha.nodup_arena
  have hassoc : pushEnum s.id d = (do
      let draft ← drafted (Stored.draftEnum s.id d)
      checkName s.id .enum (·.enums) (·.name = draft.enum.name) draft.enum.name draft.enum.token
      pure draft) >>= addEnum s.id := by
    simp only [pushEnum, bind_assoc, pure_bind]
  rw [hassoc, Stored.draftEnum_eq]
  apply ends_push ha (Assembly.meets_pushEnum hs d)
  · apply (drafts_drafted _ _ _).bind
    intro e
    apply (drafts_checkName hn hs (f := Enum.stored s.id)
      (fun _ he => Database.mem_rows_enum hmem he) rfl rfl (fun _ => rfl) _).bind
    exact fun _ => drafts_pure _ e (Enum.draft s.id)
  · exact fun e ids _ hnodup => ends_addEnum (a := ⟨a.database, ids⟩) hn hid hnodup

end Store

end Catalog
