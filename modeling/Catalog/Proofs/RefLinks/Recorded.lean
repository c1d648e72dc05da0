import Catalog.Proofs.Integrity.Reach

/-!
Fields record the endpoints that include them. New endpoints come with a ref and have numbers beyond
those of all others, so they belong at the end of what a field has recorded; a new field is included
by no endpoint yet.
-/
namespace Catalog

/-- A field records the endpoints that include it, in ascending order. -/
structure Field.Recorded (db : Database) (f : Field) : Prop where
  ascending : f.endpoints.Pairwise fun i j => i.toNat < j.toNat
  exact : ∀ i, i ∈ f.endpoints ↔ ∃ e ∈ db.endpoints, e.id = i ∧ f.id ∈ e.fields

/-! Entities that are inserted. -/

/-- The refs that come with an entity. -/
def Entity.refs : Entity → List Ref
  | .ref r => [r]
  | _ => []

def Entity.endpoints (e : Entity) : List Endpoint :=
  e.refs.flatMap (·.endpoints)

theorem Schema.refs_insert (s : Schema) (e : Entity) : (s.insert e).refs = s.refs ++ e.refs := by
  cases e <;> simp [insert, Entity.refs]

/-- The fields of a table record the endpoints that come with an entity. -/
theorem Entity.mem_fields_tie {e : Entity} {t : Table} {f' : Field} (h : f' ∈ (e.tie t).fields) :
    ∃ f ∈ t.fields, f'.id = f.id ∧
      f'.endpoints = f.endpoints ++ (e.endpoints.filter (·.covers f.id)).map (·.id) := by
  cases e with
  | ref r =>
    obtain ⟨f, hf, rfl⟩ := List.mem_map.mp h
    refine ⟨f, hf, ?_⟩
    simp only [Field.linkEndpoint, endpoints, refs, Ref.endpoints, List.flatMap_cons,
      List.flatMap_nil, List.append_nil, List.filter_cons, List.filter_nil]
    split <;> split <;> simp_all
  | tableGroup g =>
    have hfields : ((Entity.tableGroup g).tie t).fields = t.fields := by
      simp only [tie]
      split <;> rfl
    exact ⟨f', hfields ▸ h, rfl, (List.append_nil _).symm⟩
  | _ => exact ⟨f', h, rfl, (List.append_nil _).symm⟩

/-- The endpoints of an entity have the numbers that it takes, one after the other. -/
theorem Entity.numbers_endpoint (e : Entity) :
    e.numbers .endpoint = e.endpoints.map (·.id.toNat) := by
  cases e with
  | ref r => rfl
  | table t => simp [numbers, Table.numbers, Index.numbers, Id.number, endpoints, refs]
  | enum e => simp [numbers, Enum.numbers, Id.number, endpoints, refs]
  | tag t => rfl
  | tableGroup g => rfl

namespace Database

variable {db : Database} {id : Id .schema} {e : Entity}

theorem refs_relink (f : Table → Table) (g : Enum → Enum) : (db.relink f g).refs = db.refs := by
  simp only [refs, relink, List.flatMap_map]

theorem refs_place {s' : Schema} (h : s' ∈ (db.place id e).schemas) : ∃ s ∈ db.schemas,
    s'.refs = s.refs ∨ s.id = id ∧ s'.refs = s.refs ++ e.refs := by
  obtain ⟨t, ht, rfl⟩ := mem_updateSchema.mp h
  obtain ⟨s, hs, rfl⟩ := mem_relink.mp ht
  refine ⟨s, hs, ?_⟩
  split
  · rename_i hid
    exact .inr ⟨hid, Schema.refs_insert _ e⟩
  · exact .inl rfl

theorem mem_refs_place (hid : ∃ s ∈ db.schemas, s.id = id) {r : Ref} :
    r ∈ (db.place id e).refs ↔ r ∈ db.refs ∨ r ∈ e.refs := by
  constructor
  · intro hr
    obtain ⟨s', hs', hr⟩ := List.mem_flatMap.mp hr
    obtain ⟨s, hs, heq | ⟨-, heq⟩⟩ := refs_place hs'
    · exact .inl (List.mem_flatMap.mpr ⟨s, hs, heq ▸ hr⟩)
    · rw [heq] at hr
      exact (List.mem_append.mp hr).imp_left fun hr => List.mem_flatMap.mpr ⟨s, hs, hr⟩
  · have hmem : ∀ {s : Schema}, s ∈ (db.relink e.tie fun e => e).schemas →
        ∀ r ∈ (if s.id = id then s.insert e else s).refs, r ∈ (db.place id e).refs :=
      fun hs r hr => List.mem_flatMap.mpr ⟨_, mem_updateSchema.mpr ⟨_, hs, rfl⟩, hr⟩
    rintro (hr | hr)
    · rw [← refs_relink e.tie fun e => e] at hr
      obtain ⟨s, hs, hr⟩ := List.mem_flatMap.mp hr
      apply hmem hs
      split
      · rw [Schema.refs_insert]
        exact List.mem_append_left _ hr
      · exact hr
    · obtain ⟨s, hs, hsid⟩ := hid
      apply hmem (mem_relink.mpr ⟨s, hs, rfl⟩)
      rw [if_pos hsid, Schema.refs_insert]
      exact List.mem_append_right _ hr

theorem mem_endpoints_place (hid : ∃ s ∈ db.schemas, s.id = id) {v : Endpoint} :
    v ∈ (db.place id e).endpoints ↔ v ∈ db.endpoints ∨ v ∈ e.endpoints := by
  simp only [Database.endpoints, Entity.endpoints, List.mem_flatMap, mem_refs_place hid,
    or_and_right, exists_or]

theorem mem_fields_relink {f : Table → Table} {g : Enum → Enum} {f' : Field}
    (h : f' ∈ (db.relink f g).fields) : ∃ t ∈ db.tables, f' ∈ (f t).fields := by
  obtain ⟨t', ht', hf'⟩ := List.mem_flatMap.mp h
  obtain ⟨s', hs', ht'⟩ := List.mem_flatMap.mp ht'
  obtain ⟨s, hs, rfl⟩ := mem_relink.mp hs'
  obtain ⟨t, ht, rfl⟩ := List.mem_map.mp ht'
  exact ⟨t, List.mem_flatMap.mpr ⟨s, hs, ht⟩, hf'⟩

theorem mem_fields_place {f' : Field} (h : f' ∈ (db.place id e).fields) :
    (∃ f ∈ db.fields, f'.id = f.id ∧
      f'.endpoints = f.endpoints ++ (e.endpoints.filter (·.covers f.id)).map (·.id)) ∨
    ∃ t, e = .table t ∧ f' ∈ t.fields := by
  obtain ⟨t', ht', hf'⟩ := List.mem_flatMap.mp h
  obtain ⟨s', hs', ht'⟩ := List.mem_flatMap.mp ht'
  rcases mem_tables_updateSchema hs' ht' with ⟨s, hs, ht'⟩ | rfl
  · left
    have hlinked : f' ∈ (db.relink e.tie fun e => e).fields :=
      List.mem_flatMap.mpr ⟨t', List.mem_flatMap.mpr ⟨s, hs, ht'⟩, hf'⟩
    obtain ⟨t, ht, hf'⟩ := mem_fields_relink hlinked
    obtain ⟨f, hf, hlinks⟩ := Entity.mem_fields_tie hf'
    exact ⟨f, List.mem_flatMap.mpr ⟨t, ht, hf⟩, hlinks⟩
  · exact .inr ⟨t', rfl, hf'⟩

/-- Binding an enum leaves it at that which endpoints fields record. -/
theorem mem_fields_bindEnum {i : Id .enum} {f' : Field} (h : f' ∈ (db.bindEnum i).fields) :
    ∃ f ∈ db.fields, f'.id = f.id ∧ f'.endpoints = f.endpoints := by
  rw [bindEnum_eq] at h
  obtain ⟨t, ht, hf'⟩ := mem_fields_relink h
  obtain ⟨f, hf, rfl⟩ := List.mem_map.mp hf'
  refine ⟨f, List.mem_flatMap.mpr ⟨t, ht, hf⟩, ?_⟩
  unfold linkEnum
  split <;> exact ⟨rfl, rfl⟩

theorem endpoints_bindEnum (i : Id .enum) : (db.bindEnum i).endpoints = db.endpoints := by
  rw [bindEnum_eq, Database.endpoints, refs_relink, Database.endpoints]

end Database

namespace Assembly

variable {m : Remit} {a b : Assembly} {db db' : Database} {new : List Endpoint}

/-- A database has the endpoints of an assembly and some new ones, and the fields, with the new
endpoints recorded. Other fields are new, too. -/
structure Enlarges (a : Assembly) (new : List Endpoint) (db : Database) : Prop where
  endpoints : ∀ e, e ∈ db.endpoints ↔ e ∈ a.database.endpoints ∨ e ∈ new
  fields : ∀ f' ∈ db.fields,
    (∃ f ∈ a.database.fields, f'.id = f.id ∧
      f'.endpoints = f.endpoints ++ (new.filter (·.covers f.id)).map (·.id)) ∨
    f'.endpoints = [] ∧ a.ids.next .field ≤ f'.id.toNat
  ids : new.map (·.id.toNat) = List.range' (a.ids.next .endpoint) new.length
  within : ∀ e ∈ new, ∀ i ∈ e.fields, i ∈ a.database.arena .field

theorem enlarges_self (a : Assembly) : a.Enlarges [] a.database where
  endpoints e := by simp
  fields f hf := .inl ⟨f, hf, rfl, (List.append_nil _).symm⟩
  ids := rfl
  within e he := by cases he

/-- What else changes in a database does not matter. -/
theorem Enlarges.of_alike (h : a.Enlarges new db) (hends : db'.endpoints = db.endpoints)
    (hfields : ∀ f' ∈ db'.fields, ∃ f ∈ db.fields, f'.id = f.id ∧ f'.endpoints = f.endpoints) :
    a.Enlarges new db' where
  endpoints e := by rw [hends, h.endpoints]
  fields f' hf' := by
    obtain ⟨f, hf, hid, hlinks⟩ := hfields f' hf'
    rw [hid, hlinks]
    exact h.fields f hf
  ids := h.ids
  within := h.within

theorem Inserts.enlarges {s : Schema} {e : Entity} (h : a.Inserts s e b) :
    a.Enlarges e.endpoints (a.database.place s.id e) where
  endpoints v := Database.mem_endpoints_place ⟨s, h.schema, rfl⟩
  fields f' hf' := by
    rcases Database.mem_fields_place hf' with hold | ⟨t, rfl, hft⟩
    · exact .inl hold
    · have hnumber : f'.id.toNat ∈ t.numbers .field := by
        rw [Table.numbers, List.append_assoc]
        apply List.mem_append_right
        apply List.mem_append_left
        exact List.mem_flatMap.mpr ⟨f', hft, Id.mem_number.mpr ⟨rfl, rfl⟩⟩
      exact .inr ⟨(h.fits.linked.fields f' hft).endpoints, (h.ids.mem_bounds hnumber).1⟩
  ids := by
    obtain ⟨need, -, hneed⟩ := h.ids
    have hids := hneed .endpoint
    rw [e.numbers_endpoint] at hids
    have hlength := congrArg List.length hids
    rw [List.length_map, List.length_range'] at hlength
    rw [hids, hlength]
  within v hv i hi := by
    cases e with
    | ref r =>
      have hvr : v ∈ r.endpoints := by simpa only [Entity.endpoints, Entity.refs,
        List.flatMap_singleton] using hv
      apply Database.mem_arena.mpr (h.fits.linked.links .field _)
      exact List.mem_flatMap.mpr ⟨v, hvr, List.mem_append_right _ (Id.mem_flatMap_number hi)⟩
    | _ => cases hv

theorem Change.enlarges (h : Change m a b) : ∃ new, a.Enlarges new b.database := by
  cases h with
  | spend h =>
    rw [h.database]
    exact ⟨[], a.enlarges_self⟩
  | mark => exact ⟨[], a.enlarges_self.of_alike rfl fun f hf => ⟨f, hf, rfl, rfl⟩⟩
  | @opens s _ h =>
    have hends : b.database.endpoints = a.database.endpoints := by
      rw [h.database, h.empty]
      simp [Database.endpoints, Database.refs, Database.addSchema]
    have hfields : b.database.fields = a.database.fields := by
      rw [h.database, h.empty]
      simp [Database.fields, Database.tables, Database.addSchema]
    exact ⟨[], a.enlarges_self.of_alike hends fun f hf => ⟨f, hfields ▸ hf, rfl, rfl⟩⟩
  | @inserts s e _ h =>
    refine ⟨e.endpoints, ?_⟩
    rw [h.database]
    rcases a.database.commit_cases s.id e with ⟨-, heq⟩ | ⟨en, -, -, heq⟩
    · rw [heq]
      exact h.enlarges
    · rw [heq]
      exact h.enlarges.of_alike (Database.endpoints_bindEnum en.id) fun _ =>
        Database.mem_fields_bindEnum
  | bindEnum i =>
    exact ⟨[], a.enlarges_self.of_alike (Database.endpoints_bindEnum i) fun _ =>
      Database.mem_fields_bindEnum⟩

/-- New endpoints have been recorded where they belong. -/
theorem Enlarges.recorded (h : a.Enlarges new db) (hs : a.Sound)
    (ha : ∀ f ∈ a.database.fields, f.Recorded a.database) : ∀ f' ∈ db.fields, f'.Recorded db := by
  have hfresh : ∀ e ∈ new, a.ids.next .endpoint ≤ e.id.toNat := by
    intro e he
    have hmem : e.id.toNat ∈ new.map (·.id.toNat) := List.mem_map.mpr ⟨e, he, rfl⟩
    rw [h.ids, List.mem_range'_1] at hmem
    exact hmem.1
  intro f' hf'
  rcases h.fields f' hf' with ⟨f, hf, hid, hlinks⟩ | ⟨hnone, hnext⟩
  · obtain ⟨hascending, hexact⟩ := ha f hf
    constructor
    · rw [hlinks, List.pairwise_append]
      refine ⟨hascending, ?_, ?_⟩
      · have hall : new.Pairwise fun e e' => e.id.toNat < e'.id.toNat := by
          rw [← List.pairwise_map (R := (· < ·)), h.ids]
          exact List.pairwise_lt_range'
        exact List.pairwise_map.mpr (hall.filter _)
      · intro i hi j hj
        obtain ⟨e, he, rfl⟩ := List.mem_map.mp hj
        have hold := hs.numbered.below .endpoint i.toNat
          (Database.mem_arena.mp (hs.linked.endpoints hf hi))
        exact Nat.lt_of_lt_of_le hold (hfresh e (List.mem_of_mem_filter he))
    · intro i
      simp only [hlinks, hid, List.mem_append, hexact, List.mem_map, List.mem_filter,
        Endpoint.covers, decide_eq_true_eq, h.endpoints, or_and_right, exists_or]
      apply or_congr_right
      exact ⟨fun ⟨e, ⟨he, hmem⟩, heq⟩ => ⟨e, he, heq, hmem⟩,
        fun ⟨e, he, heq, hmem⟩ => ⟨e, ⟨he, hmem⟩, heq⟩⟩
  · -- A new field has a number that no endpoint can know.
    have hunknown : ∀ e ∈ db.endpoints, f'.id ∉ e.fields := by
      intro e he hmem
      have harena : f'.id ∈ a.database.arena .field := by
        rcases (h.endpoints e).mp he with he | he
        · exact hs.linked.endpointFields he hmem
        · exact h.within e he _ hmem
      have hlt := hs.numbered.below .field _ (Database.mem_arena.mp harena)
      exact Nat.not_lt_of_le hnext hlt
    constructor
    · rw [hnone]
      exact .nil
    · intro i
      rw [hnone]
      exact ⟨nofun, fun ⟨e, he, _, hmem⟩ => absurd hmem (hunknown e he)⟩

end Assembly

end Catalog
