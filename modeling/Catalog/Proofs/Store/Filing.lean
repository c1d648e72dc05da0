import Catalog.Proofs.GroupLinks
import Catalog.Proofs.RefLinks.Grounded
import Catalog.Proofs.Store.Rows
import Catalog.Store.Insert

/-!
Filing the records of an entity: what is left is the store of the tree with that entity, once its
schema lists it and the entities that it is linked to have been changed in place.
-/
namespace Catalog.Store

open Access

/-! Filing an entity and listing it in its schema. -/

section Filing

variable {a : Assembly} {id : Id .schema}

/-- Where the records of an entity are filed and the links to it drawn, listing it is all that is
left to do. -/
theorem ends_list (hn : ∀ k, (a.database.arena k).Nodup) (hid : a.HasSchema id) {e : Entity}
    (hn' : ∀ k, ((a.database.place id e).arena k).Nodup) (ρ : Rows)
    (hschema : ρ .schema = a.database.rows .schema)
    (hrows : ∀ k ≠ .schema, ρ k = (a.database.relink e.tie fun e => e).rows k ++ e.rows id k) :
    Ends (update id fun s => Stored.Schema.list s e) (a.layout.withRows ρ) (.ok ())
      (Assembly.layout ⟨a.database.place id e, a.ids⟩) := by
  have hsame : ∀ e : Enum, e.Agrees e := fun _ => ⟨rfl, fun _ => rfl⟩
  have htold : ρ.Told .schema := by
    rw [Rows.Told, hschema]
    exact Database.told_rows hn .schema
  have hmem : id ∈ (ρ .schema).map Stored.key := by
    rw [hschema, Database.map_key_rows _ .schema (by decide)]
    obtain ⟨s, hs, rfl⟩ := hid
    exact List.mem_map.mpr ⟨s, hs, rfl⟩
  have hids : (a.database.place id e).schemas.map (·.id) = a.database.schemas.map (·.id) := by
    apply Database.schemaIds_of_heads
    rw [Database.place, Database.heads_updateSchema, Database.heads_relink]
  have harena : (ρ.alter id fun s => Stored.Schema.list s e).arena
      = (a.database.place id e).rows.arena := by
    apply Database.arena_updateSchema _ _ hn'
    · rw [Rows.alter, Rows.alter, Function.update_self, Function.update_self, hschema,
        Database.rows_relink_schema e.agrees_tie]
    · intro k hk
      rw [Rows.alter, Function.update_of_ne hk]
      exact hrows k hk
    · intro k
      rw [Database.arena_eq_of_numbers (Database.numbers_relink e.agrees_tie hsame k)]
      exact hn k
    · obtain ⟨s, hs, hsid⟩ := hid
      exact ⟨_, Database.mem_relink.mpr ⟨s, hs, rfl⟩, hsid⟩
  rw [a.layout_eq _ harena.symm rfl hids]
  exact ends_update htold hmem fun s => Stored.Schema.key_list s e

variable (hn : ∀ k, (a.database.arena k).Nodup) (hid : a.HasSchema id)
include hn hid

theorem ends_addTable {t : Table} (hn' : ∀ k, ((a.database.place id (.table t)).arena k).Nodup) :
    Ends (addTable id (t.draft id)) a.layout (.ok t.id)
      (Assembly.layout ⟨a.database.place id (.table t), a.ids⟩) := by
  change Ends _ (a.layout.withRows a.database.rows) _ _
  apply (ends_inserts (k := .field) _ (t.draft id).fields).bind
  apply (ends_inserts (k := .index) _ (t.draft id).indexes).bind
  apply (ends_inserts (k := .indexColumn) _ (t.draft id).indexColumns).bind
  apply (ends_insert (k := .table) _ (t.draft id).table).bind
  refine Ends.bind (ends_list hn hid hn' _ rfl ?_) (ends_pure _ _)
  intro k hk
  rw [show (Entity.table t).tie = fun t => t from rfl, Database.relink_self]
  cases k <;> first
    | exact absurd rfl hk
    | simp [Rows.push, Rows.append, Function.update, Entity.rows, Table.draft]

theorem ends_addTag {t : Tag} (hn' : ∀ k, ((a.database.place id (.tag t)).arena k).Nodup) :
    Ends (addTag id (t.stored id)) a.layout (.ok t.id)
      (Assembly.layout ⟨a.database.place id (.tag t), a.ids⟩) := by
  change Ends _ (a.layout.withRows a.database.rows) _ _
  apply (ends_insert (k := .tag) _ (t.stored id)).bind
  refine Ends.bind (ends_list hn hid hn' _ rfl ?_) (ends_pure _ _)
  intro k hk
  rw [show (Entity.tag t).tie = fun t => t from rfl, Database.relink_self]
  cases k <;> first
    | exact absurd rfl hk
    | simp [Rows.push, Function.update, Entity.rows]

/-- An enum is filed and listed before anything else is done with it. -/
theorem ends_placeEnum {e : Enum} (hn' : ∀ k, ((a.database.place id (.enum e)).arena k).Nodup)
    {β : Type} {x : Access β} {out : Except Rejection β} {st : Store}
    (hx : Ends x (Assembly.layout ⟨a.database.place id (.enum e), a.ids⟩) out st) :
    Ends (do
        (e.draft id).values.forM fun v => insert v.id v
        insert e.id (e.stored id)
        update id fun s => { s with enums := s.enums ++ [e.id] }
        x) a.layout out st := by
  change Ends _ (a.layout.withRows a.database.rows) _ _
  apply (ends_inserts (k := .enumValue) _ (e.draft id).values).seq
  apply (ends_insert (k := .enum) _ (e.stored id)).seq
  refine Ends.seq (ends_list hn hid hn' _ rfl ?_) hx
  intro k hk
  rw [show (Entity.enum e).tie = fun t => t from rfl, Database.relink_self]
  cases k <;> first
    | exact absurd rfl hk
    | simp [Rows.push, Rows.append, Function.update, Entity.rows, Enum.draft]

end Filing

/-- The record of a field that an endpoint may cover. -/
def coveredBy (e : Stored.Endpoint) (f : Stored.Field) : Stored.Field :=
  if e.fields.contains f.id then { f with endpoints := f.endpoints ++ [e.id] } else f

/-- Records with one more endpoint. -/
def cover (ρ : Rows) (e : Stored.Endpoint) : Rows :=
  Rows.push (k := .endpoint) (Function.update ρ .field ((ρ .field).map (coveredBy e))) e

theorem map_key_cover (ρ : Rows) (e : Stored.Endpoint) :
    (cover ρ e .field).map Stored.key = (ρ .field).map Stored.key :=
  ρ.map_key_alterEach (k := .field) e.fields
    (f := fun f : Stored.Field => { f with endpoints := f.endpoints ++ [e.id] }) (fun _ => rfl)
    .field

theorem stored_linkEndpoint (f : Field) (e : Endpoint) (table : Id .table) (ref : Id .ref) :
    (f.linkEndpoint e).stored table = coveredBy (e.stored ref) (f.stored table) := by
  have hcovers : (e.stored ref).fields.contains (f.stored table).id = e.covers f.id :=
    List.contains_eq_mem _ _
  rw [Field.linkEndpoint, coveredBy, hcovers]
  exact apply_ite (Field.stored table) _ _ _

theorem ends_insertEndpoint (st : Store) {ρ : Rows} (htold : ρ.Told .field) {e : Stored.Endpoint}
    (hfields : e.fields ⊆ (ρ .field).map Stored.key) (hnodup : e.fields.Nodup) :
    Ends (insertEndpoint e) (st.withRows ρ) (.ok ()) (st.withRows (cover ρ e)) :=
  (ends_updates (k := .field) (f := fun f => { f with endpoints := f.endpoints ++ [e.id] }) htold
    hfields hnodup fun _ => rfl).seq (ends_insert (k := .endpoint) _ e)

/-! Filing what is linked to entities that exist. -/

section Linked

variable {a : Assembly} {id : Id .schema} (hn : ∀ k, (a.database.arena k).Nodup)
  (hid : a.HasSchema id)
include hn hid

theorem ends_addRef {r : Ref} (hr : r.Proper a.database)
    (hn' : ∀ k, ((a.database.place id (.ref r)).arena k).Nodup) :
    Ends (addRef id (r.draft id)) a.layout (.ok r.id)
      (Assembly.layout ⟨a.database.place id (.ref r), a.ids⟩) := by
  have hkeys : (a.database.rows .field).map Stored.key = a.database.arena .field :=
    a.database.map_key_rows .field (by decide)
  have hgrounded : ∀ e ∈ r.endpoints, e.fields ⊆ a.database.arena .field ∧ e.fields.Nodup := by
    intro e he
    obtain ⟨t, ht, hground⟩ := hr.grounded e he
    refine ⟨?_, hground.nodup⟩
    intro i hi
    obtain ⟨name, -, f, hf, rfl, -⟩ := exists_right_of_paired hground.names hi
    exact List.mem_map.mpr ⟨f, List.mem_flatMap.mpr ⟨t, ht, hf⟩, rfl⟩
  obtain ⟨hfirst, hnodup₁⟩ := hgrounded r.first (by simp [Ref.endpoints])
  obtain ⟨hsecond, hnodup₂⟩ := hgrounded r.second (by simp [Ref.endpoints])
  rw [← hkeys] at hfirst hsecond
  have htold := Database.told_rows hn .field
  have h₁ := ends_insertEndpoint a.layout (e := r.first.stored r.id) htold hfirst hnodup₁
  rw [Rows.Told, ← map_key_cover _ (r.first.stored r.id)] at htold
  rw [← map_key_cover _ (r.first.stored r.id)] at hsecond
  have h₂ := ends_insertEndpoint a.layout (e := r.second.stored r.id) htold hsecond hnodup₂
  change Ends _ (a.layout.withRows a.database.rows) _ _
  apply Ends.seq (h₁.seq (h₂.seq (ends_pure () _)))
  apply (ends_insert (k := .ref) _ (r.stored id)).seq
  refine Ends.bind (ends_list hn hid hn' _ rfl ?_) (ends_pure _ _)
  intro k hk
  have htie : (a.database.relink (Entity.ref r).tie fun e => e)
      = a.database.mapFields fun f => (f.linkEndpoint r.first).linkEndpoint r.second :=
    (a.database.mapFields_eq_relink _).symm
  rw [htie, Database.rows_mapFields (g := fun f =>
    coveredBy (r.second.stored r.id) (coveredBy (r.first.stored r.id) f))]
  · cases k <;> first
      | exact absurd rfl hk
      | simp [Rows.push, cover, Function.update, Entity.rows, Ref.endpoints, Function.comp_def]
  · intro t f
    rw [stored_linkEndpoint _ _ t r.id, stored_linkEndpoint f _ t r.id]
  · intro f
    simp only [Field.linkEndpoint]
    split <;> split <;> rfl

/-- The record of a table that a group may hold. -/
def groupedBy (g : Stored.TableGroup) (t : Stored.Table) : Stored.Table :=
  if g.tables.contains t.id then { t with group := some g.id } else t

theorem ends_addTableGroup {g : TableGroup} (hg : g.ResolvedIn a.database)
    (hn' : ∀ k, ((a.database.place id (.tableGroup g)).arena k).Nodup) :
    Ends (addTableGroup id (g.stored id)) a.layout (.ok g.id)
      (Assembly.layout ⟨a.database.place id (.tableGroup g), a.ids⟩) := by
  have htables : g.tables ⊆ (a.database.rows .table).map Stored.key := by
    rw [a.database.map_key_rows .table (by decide)]
    obtain ⟨d, ts, hres, -, -, htables, -⟩ := hg
    rw [htables]
    rintro i hi
    obtain ⟨t, ht, rfl⟩ := List.mem_map.mp hi
    rcases Database.mem_of_resolveMembers hres ht with hnone | ⟨s, hs, hst⟩
    · cases hnone
    · exact List.mem_map.mpr ⟨t, List.mem_flatMap.mpr ⟨s, hs, hst⟩, rfl⟩
  change Ends _ (a.layout.withRows a.database.rows) _ _
  apply (ends_updates (k := .table) (f := fun t => { t with group := some g.id })
    (Database.told_rows hn .table) htables hg.nodup fun _ => rfl).seq
  apply (ends_insert (k := .tableGroup) _ (g.stored id)).seq
  refine Ends.bind (ends_list hn hid hn' _ rfl ?_) (ends_pure _ _)
  intro k hk
  have htie : (a.database.relink (Entity.tableGroup g).tie fun e => e)
      = a.database.mapTables (Entity.tableGroup g).tie := by
    simp only [Database.relink, Database.mapTables, List.map_id']
  rw [htie, Database.rows_mapTables (g := groupedBy (g.stored id))]
  · cases k with
    | schema => exact absurd rfl hk
    | table => exact (List.append_nil _).symm
    | _ => simp [Rows.push, Rows.alterEach, Function.update, Entity.rows]
  · intro s t
    exact apply_ite (Table.stored s) _ _ _
  all_goals
    intro t
    simp only [Entity.tie]
    split <;> rfl

end Linked

end Catalog.Store
