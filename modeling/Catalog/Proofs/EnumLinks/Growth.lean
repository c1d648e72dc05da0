import Catalog.Proofs.EnumLinks.Wiring
import Catalog.Proofs.Integrity.Reach
import Catalog.Proofs.Lookup

/-!
The wiring of a database under construction. Only schemas, tables and enums change it, and what they
make of the links of enums depends on what is there when they come.
-/
namespace Catalog

open Wiring (HasField HasEnum Told Links)

namespace Database

variable {db : Database} {s : Schema}

theorem fields_wiring (db : Database) : Wiring.fields db.wiring = db.fields.map (·.wiring) := by
  simp only [Wiring.fields, wiring, Schema.wiring, fields, tables, List.flatMap_map,
    List.map_flatMap, List.flatMap_assoc, ← List.flatMap_def, Table.wiring]

theorem getElem?_wiring {i : Nat} (hs : db.schemas[i]? = some s) :
    db.wiring[i]? = some s.wiring := by
  rw [wiring, List.getElem?_map, hs]
  rfl

theorem hasEnum_wiring_iff {q : Place} {n : String} {e : Enum} : HasEnum db.wiring q n e ↔
    ∃ s, db.schemas[q.schema]? = some s ∧ s.name = n ∧ s.enums[q.item]? = some e := by
  constructor
  · rintro ⟨w, hw, hname, he⟩
    rw [wiring, List.getElem?_map, Option.map_eq_some_iff] at hw
    obtain ⟨s, hs, rfl⟩ := hw
    exact ⟨s, hs, hname, he⟩
  · rintro ⟨s, hs, hname, he⟩
    exact ⟨s.wiring, getElem?_wiring hs, hname, he⟩

theorem exists_hasEnum_of_mem {i : Id .enum} (h : i ∈ db.arena .enum) :
    ∃ q n e, HasEnum db.wiring q n e ∧ e.id = i := by
  obtain ⟨e, he, rfl⟩ := List.mem_map.mp h
  obtain ⟨s, hs, he⟩ := List.mem_flatMap.mp he
  obtain ⟨j, hj⟩ := List.mem_iff_getElem?.mp hs
  obtain ⟨l, hl⟩ := List.mem_iff_getElem?.mp he
  exact ⟨⟨j, l⟩, s.name, e, hasEnum_wiring_iff.mpr ⟨s, hj, rfl, hl⟩, rfl⟩

theorem hasField_wiring {p : Place} {t : Table} {f : Field} (hs : db.schemas[p.schema]? = some s)
    (ht : s.tables[p.item]? = some t) (hf : f ∈ t.fields) : HasField db.wiring p f.wiring := by
  refine ⟨s.wiring, t.wiring, getElem?_wiring hs, ?_, List.mem_map.mpr ⟨f, hf, rfl⟩⟩
  rw [Schema.wiring, List.getElem?_map, ht]
  rfl

theorem Named.nodup_names (h : db.Named) : (db.schemas.map (·.name)).Nodup := by
  apply List.pairwise_map.mpr
  apply h.apart.imp
  intro s t hapart heq
  rw [SchemaInfo.collides, heq, decide_eq_true rfl] at hapart
  cases hapart

theorem told_wiring (hn : ∀ k, (db.arena k).Nodup) (h : db.Named) : Told db.wiring where
  fields := by
    rw [fields_wiring, List.map_map]
    exact hn .field
  ids := by
    intro q q' n n' e e' he he' hid
    obtain ⟨s, hs, rfl, hse⟩ := hasEnum_wiring_iff.mp he
    obtain ⟨s', hs', rfl, hse'⟩ := hasEnum_wiring_iff.mp he'
    have henums := hn .enum
    rw [arena, enums, List.map_flatMap] at henums
    obtain ⟨rfl, rfl⟩ := eq_of_nodup_flatMap henums (List.mem_of_getElem? hs)
      (List.mem_of_getElem? hse) (List.mem_of_getElem? hs') (List.mem_of_getElem? hse') hid
    exact ⟨rfl, rfl⟩
  names := by
    intro q q' n n' e e' he he' hname hename
    obtain ⟨s, hs, rfl, hse⟩ := hasEnum_wiring_iff.mp he
    obtain ⟨s', hs', rfl, hse'⟩ := hasEnum_wiring_iff.mp he'
    obtain rfl := List.inj_on_of_nodup_map h.nodup_names (List.mem_of_getElem? hs)
      (List.mem_of_getElem? hs') hname
    have hnames : (s.enums.map (·.name)).Nodup :=
      (h.distinct s (List.mem_of_getElem? hs)).children .enum
    rw [List.inj_on_of_nodup_map hnames (List.mem_of_getElem? hse) (List.mem_of_getElem? hse')
      hename]

/-! Changes of a database, and what they do to its wiring. -/

theorem wiring_tie (e : Entity) (t : Table) : (e.tie t).wiring = t.wiring := by
  cases e with
  | ref r =>
    simp only [Table.wiring, Entity.tie, List.map_map]
    apply List.map_congr_left
    intro f _
    simp only [Function.comp_apply, Field.linkEndpoint]
    split <;> split <;> rfl
  | tableGroup g =>
    simp only [Entity.tie]
    split <;> rfl
  | _ => rfl

/-- Changing the schema at one place changes the wiring there. -/
theorem wiring_updateSchema (hn : (db.arena .schema).Nodup) {i : Nat}
    (hs : db.schemas[i]? = some s) {f : Schema → Schema} {g : Wiring → Wiring}
    (hf : ∀ s, (f s).wiring = g s.wiring) :
    (db.updateSchema s.id f).wiring = db.wiring.modify i g := by
  apply List.ext_getElem?
  intro j
  rw [wiring, updateSchema, List.map_map, List.getElem?_map, List.getElem?_modify, wiring,
    List.getElem?_map]
  cases hu : db.schemas[j]? with
  | none => rfl
  | some u =>
    have hiff : u.id = s.id ↔ i = j := by
      constructor
      · exact fun hid => index_eq_of_nodup hn hs hu hid.symm
      · rintro rfl
        rw [hs] at hu
        cases hu
        rfl
    by_cases hid : u.id = s.id
    · simp [hid, hiff.mp hid, hf]
    · have hne : i ≠ j := fun hij => hid (hiff.mpr hij)
      simp [hid, hne]

theorem wiring_relink_tie (db : Database) (e : Entity) :
    (db.relink e.tie fun e => e).wiring = db.wiring := by
  simp only [wiring, relink, List.map_map, Function.comp_def, Schema.wiring, wiring_tie,
    List.map_id']

theorem wiring_place (hn : (db.arena .schema).Nodup) {i : Nat} (hs : db.schemas[i]? = some s)
    (e : Entity) {g : Wiring → Wiring} (hg : ∀ s : Schema, (s.insert e).wiring = g s.wiring) :
    (db.place s.id e).wiring = db.wiring.modify i g := by
  have hs' : (db.relink e.tie fun e => e).schemas[i]?
      = some { s with tables := s.tables.map e.tie, enums := s.enums.map fun e => e } := by
    rw [relink, List.getElem?_map, hs]
    rfl
  have hn' : ((db.relink e.tie fun e => e).arena .schema).Nodup := by
    simp only [arena, relink, List.map_map]
    exact hn
  have hupdate := wiring_updateSchema hn' hs' hg
  rw [wiring_relink_tie] at hupdate
  exact hupdate

theorem wiring_place_same (db : Database) (id : Id .schema) {e : Entity}
    (hg : ∀ s : Schema, (s.insert e).wiring = s.wiring) : (db.place id e).wiring = db.wiring := by
  rw [← wiring_relink_tie db e, place, wiring, updateSchema, List.map_map, wiring]
  apply List.map_congr_left
  intro s _
  rw [Function.comp_apply]
  split
  · exact hg s
  · rfl

theorem wiring_bindEnum (db : Database) (i : Id .enum) :
    (db.bindEnum i).wiring = Wiring.bind (db.matchesEnum i) i db.wiring := by
  have hmatches : ∀ f : Field, db.matchesEnum i f.wiring = db.matchesEnum i f := fun _ => rfl
  have hfield : ∀ f, (db.linkEnum i f).wiring
      = Wiring.bindField (db.matchesEnum i) i f.wiring := by
    intro f
    rw [linkEnum, Wiring.bindField, hmatches]
    split <;> rfl
  have hids : ((Wiring.fields db.wiring).filter (db.matchesEnum i)).map (·.id)
      = (db.matchingFields i).map (·.id) := by
    rw [fields_wiring, List.filter_map, List.map_map]
    rfl
  rw [bindEnum_eq]
  simp only [wiring, Wiring.bind, relink, List.map_map]
  apply List.map_congr_left
  intro s _
  rw [← wiring, hids]
  simp only [Function.comp_apply, Schema.wiring, Wiring.bindSchema, List.map_map, Table.wiring,
    Function.comp_def, hfield]
  rfl

/-- The fields that an enum is the type of are told by its name and that of its schema. -/
theorem matchesEnum_eq (hn : (db.arena .enum).Nodup) {q : Place} {n : String} {e : Enum}
    (he : HasEnum db.wiring q n e) : db.matchesEnum e.id
      = fun f => f.isOfEnum db.config.defaultSchemaName n e.name := by
  obtain ⟨s, hs, rfl, hse⟩ := hasEnum_wiring_iff.mp he
  have hs' := List.mem_of_getElem? hs
  have he' := List.mem_of_getElem? hse
  funext f
  rw [matchesEnum, schemaOfEnum?_of_mem hn hs' he',
    enum?_of_mem hn (List.mem_flatMap.mpr ⟨s, hs', he'⟩)]

end Database

namespace Assembly

variable {m : Remit} {a b : Assembly}

/-- What a change makes of the wiring, unless it binds an enum that was there. -/
inductive Rewires (m : Remit) (a b : Assembly) : Prop
  | same : b.database.wiring = a.database.wiring → Rewires m a b
  | schema (name : String) :
      b.database.wiring = a.database.wiring ++ [{ name := name }] → Rewires m a b
  | table {i : Nat} {s : Schema} {t : Table} : a.database.schemas[i]? = some s →
      m.inserts s (.table t) → (∀ f ∈ t.wiring, f.enumId = none) →
      b.database.wiring = Wiring.addTable i t.wiring a.database.wiring → Rewires m a b
  | enum {i : Nat} {s : Schema} {e : Enum} : a.database.schemas[i]? = some s →
      m.inserts s (.enum e) → e.fields = [] → e.id ∉ a.database.arena .enum →
      a.database.config.enumBinding = .afterConstruction →
      b.database.wiring = Wiring.addEnum i e a.database.wiring → Rewires m a b
  | boundEnum {i : Nat} {s : Schema} {e : Enum} : a.database.schemas[i]? = some s →
      m.inserts s (.enum e) → e.fields = [] → e.id ∉ a.database.arena .enum →
      a.database.config.enumBinding = .onInsert →
      b.database.wiring = Wiring.bind
        (fun f => f.isOfEnum a.database.config.defaultSchemaName s.name e.name) e.id
        (Wiring.addEnum i e a.database.wiring) → Rewires m a b

theorem config_change (hab : Change m a b) : b.database.config = a.database.config := by
  cases hab with
  | spend h => rw [h.database]
  | mark => rfl
  | opens h =>
    rw [h.database]
    rfl
  | @inserts s e _ h =>
    rw [h.database]
    rcases a.database.commit_cases s.id e with ⟨-, heq⟩ | ⟨en, -, -, heq⟩
    · rw [heq]
      rfl
    · rw [heq]
      rfl
  | bindEnum i => rfl

/-- An enum that is being inserted has a new identifier. -/
theorem Inserts.new_enum (h : a.Sound) {s : Schema} {e : Enum} (hab : a.Inserts s (.enum e) b) :
    e.id ∉ a.database.arena .enum := by
  intro hmem
  have hown : e.id.toNat ∈ Entity.numbers (.enum e) .enum := by
    simp [Entity.numbers, Enum.numbers, Id.number]
  have hbelow := h.numbered.below .enum _ (Database.mem_arena.mp hmem)
  exact Nat.not_lt_of_le (hab.ids.mem_bounds hown).1 hbelow

/-- What an insertion makes of the wiring depends on the kind of record. -/
theorem Inserts.rewires {s : Schema} {e : Entity} (hab : a.Inserts s e b) (h : a.Sound)
    (hb : b.Sound) (hm : m.inserts s e) : a.Rewires m b := by
  have hn := h.nodup_arena .schema
  obtain ⟨i, hi⟩ := List.mem_iff_getElem?.mp hab.schema
  have hother : (∀ u : Schema, (u.insert e).wiring = u.wiring) → (∀ en, e ≠ .enum en) →
      a.Rewires m b := by
    intro hsame hkind
    apply Rewires.same
    rcases a.database.commit_cases s.id e with ⟨-, heq⟩ | ⟨en, hen, -⟩
    · rw [hab.database, heq, Database.wiring_place_same _ _ hsame]
    · exact absurd hen (hkind en)
  cases e with
  | table t =>
    apply Rewires.table hi hm
    · intro f hf
      obtain ⟨f', hf', rfl⟩ := List.mem_map.mp hf
      exact (hab.fits.linked.fields f' hf').enumId
    · rcases a.database.commit_cases s.id (.table t) with ⟨-, heq⟩ | ⟨en, hen, -⟩
      · rw [hab.database, heq]
        apply Database.wiring_place hn hi
        intro u
        simp [Schema.insert, Schema.wiring]
      · cases hen
  | enum e =>
    have hplaced : (a.database.place s.id (.enum e)).wiring
        = Wiring.addEnum i e a.database.wiring :=
      Database.wiring_place hn hi (.enum e) fun _ => rfl
    rcases a.database.commit_cases s.id (.enum e) with ⟨hbinding, heq⟩ | ⟨en, hen, hbinding, heq⟩
    · apply Rewires.enum hi hm hab.fits.linked (hab.new_enum h) (hbinding e rfl)
      rw [hab.database, heq, hplaced]
    · cases hen
      apply Rewires.boundEnum hi hm hab.fits.linked (hab.new_enum h) hbinding
      have hnew :
          HasEnum (a.database.place s.id (.enum e)).wiring ⟨i, s.enums.length⟩ s.name e := by
        rw [hplaced]
        exact Wiring.hasEnum_addEnum_self (Database.getElem?_wiring hi) e
      have hnodup : ((a.database.place s.id (.enum e)).arena .enum).Nodup := by
        have hnumbers := hb.numbered.nodup .enum
        rw [hab.database, heq, Database.numbers_bindEnum] at hnumbers
        exact Database.nodup_arena hnumbers
      rw [hab.database, heq, Database.wiring_bindEnum, Database.matchesEnum_eq hnodup hnew,
        hplaced]
      rfl
  | tag t => exact hother (fun _ => rfl) fun _ hen => by cases hen
  | ref r => exact hother (fun _ => rfl) fun _ hen => by cases hen
  | tableGroup g => exact hother (fun _ => rfl) fun _ hen => by cases hen

theorem Sound.rewires (h : a.Sound) (hb : ¬ m.binds) (hab : Change m a b) : a.Rewires m b := by
  have hsound : b.Sound := h.change hab
  cases hab with
  | spend h =>
    apply Rewires.same
    rw [h.database]
  | mark => exact .same rfl
  | @opens s _ hs =>
    apply Rewires.schema s.name
    rw [hs.database, Database.wiring, Database.addSchema, List.map_append, hs.empty]
    rfl
  | inserts hs hm => exact hs.rewires h hsound hm
  | bindEnum i hm => exact absurd hm hb

end Assembly

end Catalog
