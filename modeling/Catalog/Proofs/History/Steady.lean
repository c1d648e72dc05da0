import Catalog.Proofs.EnumLinks.Growth
import Catalog.Proofs.History.Grows

/-!
Changes only ever let a database grow. A group takes no table of another one, and binding an enum
overwrites what a field is linked to, but only one enum can be the declared type of a field.
-/
namespace Catalog

namespace Database

variable {db db' : Database} {f : FieldInfo} {i j : Id .enum}

/-- An enum is the declared type of a field. -/
def TypedBy (db : Database) (f : FieldInfo) (i : Id .enum) : Prop :=
  ∃ s ∈ db.schemas, ∃ e ∈ s.enums, e.id = i ∧
    f.isOfEnum db.config.defaultSchemaName s.name e.name = true

/-- Fields are linked to no enums but those that are their declared types. -/
def Typed (db : Database) : Prop :=
  ∀ f ∈ db.fields, ∀ i, f.enumId = some i → db.TypedBy f.toFieldInfo i

theorem typedBy_of_matchesEnum (hn : (db.arena .enum).Nodup) {f : Field}
    (h : db.matchesEnum i f = true) : db.TypedBy f.toFieldInfo i := by
  obtain ⟨s, e, hs, he, hf⟩ := matchesEnum_iff.mp h
  have hid : e.id = i :=
    of_decide_eq_true (List.find?_some (p := fun e : Enum => decide (e.id = i)) he)
  obtain ⟨s', hs', he'⟩ := List.mem_flatMap.mp (List.mem_of_find?_eq_some he)
  have howner := schemaOfEnum?_of_mem hn hs' he'
  rw [hid, hs, Option.some.injEq] at howner
  exact ⟨s, howner ▸ hs', e, howner ▸ he', hid, hf⟩

/-- Schemas have different names, as have the enums of one. -/
theorem Named.typedBy_unique (h : db.Named) (hi : db.TypedBy f i) (hj : db.TypedBy f j) :
    i = j := by
  obtain ⟨s, hs, e, he, rfl, hf⟩ := hi
  obtain ⟨s', hs', e', he', rfl, hf'⟩ := hj
  obtain ⟨hschema, henum⟩ := Wiring.eq_of_isOfEnum hf hf'
  obtain rfl := List.inj_on_of_nodup_map h.nodup_names hs hs' hschema
  rw [List.inj_on_of_nodup_map ((h.distinct s hs).children .enum) he he' henum]

theorem Grows.typedBy (h : db.Grows db') (hf : db.TypedBy f i) : db'.TypedBy f i := by
  obtain ⟨s, hs, e, he, hid, hf⟩ := hf
  obtain ⟨s', hs', hgrow⟩ := h.schemas.exists_of_mem hs
  obtain ⟨e', he', hegrow⟩ := hgrow.enums.exists_of_mem he
  refine ⟨s', hs', e', he', ?_, ?_⟩
  · rw [hegrow.same]
    exact hid
  · rw [h.same, hgrow.same, hegrow.same]
    exact hf

/-- A database grows, and its fields are linked as before or to their types. -/
theorem Typed.of_grows (h : db.Typed) (hgrow : db.Grows db')
    (hfields : ∀ f' ∈ db'.fields, ∀ i, f'.enumId = some i →
      (∃ f ∈ db.fields, f.toFieldInfo = f'.toFieldInfo ∧ f.enumId = some i) ∨
        db.TypedBy f'.toFieldInfo i) : db'.Typed := by
  intro f' hf' i hi
  apply hgrow.typedBy
  rcases hfields f' hf' i hi with ⟨f, hf, hinfo, hlink⟩ | htyped
  · exact hinfo ▸ h f hf i hlink
  · exact htyped

/-! Binding an enum. -/

theorem prefix_foldl_pushNew {α : Type} [DecidableEq α] (xs ys : List α) :
    xs <+: ys.foldl pushNew xs := by
  induction ys generalizing xs with
  | nil => exact List.prefix_rfl
  | cons y ys ih =>
    have hpush : xs <+: pushNew xs y := by
      unfold pushNew
      split
      · exact List.prefix_rfl
      · exact List.prefix_append _ _
    exact hpush.trans (ih _)

/-- A field that is linked anew has been linked to the same enum. -/
theorem Typed.grows_linkEnum (h : db.Typed) (hn : (db.arena .enum).Nodup) (hnamed : db.Named)
    (i : Id .enum) {f : Field} (hf : f ∈ db.fields) : f.Grows (db.linkEnum i f) := by
  unfold linkEnum
  split
  · rename_i hmatch
    refine ⟨rfl, ?_, List.prefix_rfl⟩
    intro j hj
    rw [hnamed.typedBy_unique (h f hf j hj) (typedBy_of_matchesEnum hn hmatch)]
  · exact .refl f

theorem Typed.grows_bindEnum (h : db.Typed) (hn : (db.arena .enum).Nodup) (hnamed : db.Named)
    (i : Id .enum) : db.Grows (db.bindEnum i) := by
  rw [bindEnum_eq]
  apply grows_relink
  · intro t ht
    apply t.grows_mapFields
    exact fun f hf => h.grows_linkEnum hn hnamed i (List.mem_flatMap.mpr ⟨t, ht, hf⟩)
  · intro e _
    unfold collectFields
    split
    · exact ⟨rfl, prefix_foldl_pushNew _ _⟩
    · exact .refl e

theorem Typed.bindEnum (h : db.Typed) (hn : (db.arena .enum).Nodup) (hnamed : db.Named)
    (i : Id .enum) : (db.bindEnum i).Typed := by
  apply h.of_grows (h.grows_bindEnum hn hnamed i)
  intro f' hf' j hj
  rw [bindEnum_eq] at hf'
  obtain ⟨t', ht', hft⟩ := List.mem_flatMap.mp hf'
  obtain ⟨t, ht, rfl⟩ := mem_tables_relink ht'
  obtain ⟨f, hf, rfl⟩ := List.mem_map.mp hft
  unfold linkEnum at hj ⊢
  split at hj
  · rename_i hmatch
    rw [if_pos hmatch]
    cases hj
    exact .inr (typedBy_of_matchesEnum hn hmatch)
  · rename_i hother
    rw [if_neg hother]
    exact .inl ⟨f, List.mem_flatMap.mpr ⟨t, ht, hf⟩, rfl, hj⟩

/-- What comes with an entity does nothing to the links between enums and fields. -/
theorem mem_fields_place_wiring {id : Id .schema} {e : Entity} {f' : Field}
    (h : f' ∈ (db.place id e).fields) :
    (∃ f ∈ db.fields, f.wiring = f'.wiring) ∨ ∃ t, e = .table t ∧ f' ∈ t.fields := by
  obtain ⟨t', ht', hft⟩ := List.mem_flatMap.mp h
  rcases mem_tables_place ht' with ⟨t, ht, rfl⟩ | rfl
  · have hmem : f'.wiring ∈ (e.tie t).wiring := List.mem_map.mpr ⟨f', hft, rfl⟩
    rw [wiring_tie] at hmem
    obtain ⟨f, hf, heq⟩ := List.mem_map.mp hmem
    exact .inl ⟨f, List.mem_flatMap.mpr ⟨t, ht, hf⟩, heq⟩
  · exact .inr ⟨t', rfl, hft⟩

end Database

namespace Assembly

variable {m : Remit} {a b : Assembly} {s : Schema} {e : Entity}

/-- Enough is told of an assembly that changes only let it grow. -/
structure Steady (a : Assembly) : Prop extends a.Sound where
  affiliated : a.database.Affiliated
  typed : a.database.Typed

theorem Inserts.typed (hab : a.Inserts s e b) (h : a.Steady) :
    (a.database.place s.id e).Typed := by
  apply h.typed.of_grows (Database.grows_place (h.nodup_arena .table) s.id hab.fits.linked)
  intro f' hf' i hi
  rcases Database.mem_fields_place_wiring hf' with ⟨f, hf, heq⟩ | ⟨t, rfl, hft⟩
  · have hlink : f.enumId = f'.enumId := congrArg (·.enumId) heq
    exact .inl ⟨f, hf, congrArg (·.toFieldInfo) heq, hlink.trans hi⟩
  · rw [(hab.fits.linked.fields f' hft).enumId] at hi
    cases hi

/-- Where an enum is bound as it is inserted, names and identifiers tell it from others by then. -/
theorem Inserts.told_place (hab : a.Inserts s e b) (h : a.Sound) :
    (∀ k, ((a.database.place s.id e).arena k).Nodup) ∧ (a.database.place s.id e).Named := by
  have hsound : b.Sound := h.change (.inserts (m := .full) hab trivial)
  constructor
  · intro k
    have hnumbers := hsound.numbered.nodup k
    rcases a.database.commit_cases s.id e with ⟨-, heq⟩ | ⟨en, -, -, heq⟩
    · rw [hab.database, heq] at hnumbers
      exact Database.nodup_arena hnumbers
    · rw [hab.database, heq, Database.numbers_bindEnum] at hnumbers
      exact Database.nodup_arena hnumbers
  · exact h.named.place hab.fits fun t ht hid =>
      Database.eq_of_schema_id (h.numbered.nodup .schema) ht hab.schema hid

theorem Inserts.grows_typed (hab : a.Inserts s e b) (h : a.Steady) :
    a.database.Grows b.database ∧ b.database.Typed := by
  have hgrows := Database.grows_place (h.nodup_arena .table) s.id hab.fits.linked
  have htyped := hab.typed h
  rcases a.database.commit_cases s.id e with ⟨-, heq⟩ | ⟨en, -, -, heq⟩
  · rw [hab.database, heq]
    exact ⟨hgrows, htyped⟩
  · obtain ⟨hnodup, hnamed⟩ := hab.told_place h.toSound
    rw [hab.database, heq]
    exact ⟨hgrows.trans (htyped.grows_bindEnum (hnodup .enum) hnamed en.id),
      htyped.bindEnum (hnodup .enum) hnamed en.id⟩

/-- What one change does to the database: it grows, and remains to be typed. -/
theorem Steady.grows_typed (h : a.Steady) (hab : Change m a b) :
    a.database.Grows b.database ∧ b.database.Typed := by
  cases hab with
  | spend hab =>
    rw [hab.database]
    exact ⟨.refl _, h.typed⟩
  | mark => exact ⟨a.database.grows_markDefault, h.typed⟩
  | @opens s _ hab =>
    have hgrows := a.database.grows_addSchema s
    have hfields : (a.database.addSchema s).fields = a.database.fields := by
      rw [hab.empty]
      simp [Database.fields, Database.tables, Database.addSchema]
    rw [hab.database]
    refine ⟨hgrows, h.typed.of_grows hgrows ?_⟩
    rw [hfields]
    exact fun f hf i hi => .inl ⟨f, hf, rfl, hi⟩
  | inserts hab => exact hab.grows_typed h
  | bindEnum i =>
    have hnodup := h.nodup_arena .enum
    exact ⟨h.typed.grows_bindEnum hnodup h.named i, h.typed.bindEnum hnodup h.named i⟩

theorem Steady.change (h : a.Steady) (hab : Change m a b) : b.Steady where
  toSound := h.toSound.change hab
  affiliated := h.affiliated_change h.affiliated hab
  typed := (h.grows_typed hab).2

/-- Binding tags does nothing to fields and enums. -/
theorem Bound.typed (hab : Bound a b) (h : a.database.Typed) : b.database.Typed := by
  intro f' hf' i hi
  obtain ⟨t', ht', hf'⟩ := List.mem_flatMap.mp hf'
  obtain ⟨s', hs', ht'⟩ := List.mem_flatMap.mp ht'
  obtain ⟨s, hs, hbound⟩ := exists_right_of_paired hab.schemas hs'
  obtain ⟨t, ht, htbound⟩ := exists_right_of_paired hbound.tables ht'
  have hf : f' ∈ a.database.fields := by
    rw [htbound.fields] at hf'
    exact List.mem_flatMap.mpr ⟨t, List.mem_flatMap.mpr ⟨s, hs, ht⟩, hf'⟩
  obtain ⟨u, hu, e, he, hid, hof⟩ := h f' hf i hi
  obtain ⟨u', hu', hubound⟩ := exists_left_of_paired hab.schemas hu
  have henums : u'.enums = u.enums ∧ u'.name = u.name := by
    rw [hubound.same]
    exact ⟨rfl, rfl⟩
  refine ⟨u', hu', e, henums.1 ▸ he, hid, ?_⟩
  rw [henums.2, hab.database]
  exact hof

theorem Steady.binds (h : a.Steady) (hab : Binds a b) : b.Steady where
  toSound := h.toSound.binds hab
  affiliated := (h.bound hab).affiliated h.affiliated
  typed := (h.bound hab).typed h.typed

theorem steady_start (c : Config) (project : DatabaseInfo) : (start c project).Steady where
  toSound := sound_start c project
  affiliated := affiliated_start c project
  typed _ hf := absurd hf List.not_mem_nil

theorem Reachable.steady (h : a.Reachable) : a.Steady :=
  h.keep steady_start (fun _ _ => Steady.change) fun _ _ => Steady.binds

/-- One change after another lets the database grow. -/
theorem Steady.grows (h : a.Steady) (hab : Changes m a b) : a.database.Grows b.database := by
  have hboth : b.Steady ∧ a.database.Grows b.database := by
    apply hab.keep (I := fun b => b.Steady ∧ a.database.Grows b.database)
    · exact fun b b' hb hbb' => ⟨hb.1.change hbb', hb.2.trans (hb.1.grows_typed hbb').1⟩
    · exact ⟨h, .refl _⟩
  exact hboth.2

end Assembly

end Catalog
