import Catalog.Proofs.EnumLinks
import Catalog.Proofs.History.Steady
import Catalog.Proofs.RefLinks.Recorded

/-!
Enums and the fields that they are linked to know each other, in every state that can be reached.
One of the links is overwritten and the other list only grows, which goes together because a field
has one type at most. Binding twice is binding once.
-/
namespace Catalog

/-- Pushing what is there already changes nothing. -/
theorem foldl_pushNew_of_subset {α : Type} [DecidableEq α] {xs ys : List α} (h : ys ⊆ xs) :
    ys.foldl pushNew xs = xs := by
  induction ys with
  | nil => rfl
  | cons y ys ih =>
    rw [List.cons_subset] at h
    rw [List.foldl_cons, pushNew, if_pos h.1, ih h.2]

theorem nodup_foldl_pushNew {α : Type} [DecidableEq α] {xs : List α} (h : xs.Nodup)
    (ys : List α) : (ys.foldl pushNew xs).Nodup := by
  induction ys generalizing xs with
  | nil => exact h
  | cons y ys ih => exact ih (nodup_pushNew h y)

theorem map_eq_self {α : Type} {f : α → α} {l : List α} (h : ∀ a ∈ l, f a = a) : l.map f = l :=
  (List.map_congr_left h).trans (List.map_id l)

namespace Database

/-- A field is linked to an enum where the enum collects it, and no enum collects a field twice. -/
structure Mutual (db : Database) : Prop where
  link : ∀ f ∈ db.fields, ∀ e ∈ db.enums, f.enumId = some e.id ↔ f.id ∈ e.fields
  once : ∀ e ∈ db.enums, e.fields.Nodup

/-- All fields that are there with an enum as their type are linked to it. -/
def Collected (db : Database) (i : Id .enum) : Prop :=
  ∀ f ∈ db.fields, db.TypedBy f.toFieldInfo i → f.enumId = some i

variable {db : Database} {f : Field} {i j : Id .enum}

/-! Binding one enum. -/

theorem matchesEnum_iff_typedBy (hn : (db.arena .enum).Nodup) :
    db.matchesEnum i f = true ↔ db.TypedBy f.toFieldInfo i := by
  constructor
  · exact typedBy_of_matchesEnum hn
  · rintro ⟨s, hs, e, he, rfl, hf⟩
    have he' := enum?_of_mem hn (List.mem_flatMap.mpr ⟨s, hs, he⟩)
    exact matchesEnum_iff.mpr ⟨s, e, schemaOfEnum?_of_mem hn hs he, he', hf⟩

theorem fields_bindEnum (i : Id .enum) : (db.bindEnum i).fields = db.fields.map (db.linkEnum i) := by
  simp only [bindEnum_eq, fields, tables, relink, List.flatMap_map, List.map_flatMap,
    List.flatMap_assoc]

theorem enums_bindEnum (i : Id .enum) :
    (db.bindEnum i).enums = db.enums.map (db.collectFields i) := by
  simp only [bindEnum_eq, enums, relink, List.flatMap_map, List.map_flatMap]

theorem collectFields_id (e : Enum) : (db.collectFields i e).id = e.id := by
  unfold collectFields
  split <;> rfl

theorem collectFields_info (e : Enum) : (db.collectFields i e).toEnumInfo = e.toEnumInfo := by
  unfold collectFields
  split <;> rfl

theorem typedBy_bindEnum {f : FieldInfo} : (db.bindEnum i).TypedBy f j ↔ db.TypedBy f j := by
  rw [bindEnum_eq]
  constructor
  · rintro ⟨s', hs', e', he', hid, hf⟩
    obtain ⟨s, hs, rfl⟩ := mem_relink.mp hs'
    obtain ⟨e, he, rfl⟩ := List.mem_map.mp he'
    rw [collectFields_id] at hid
    rw [collectFields_info] at hf
    exact ⟨s, hs, e, he, hid, hf⟩
  · rintro ⟨s, hs, e, he, hid, hf⟩
    refine ⟨_, mem_relink.mpr ⟨s, hs, rfl⟩, _, List.mem_map.mpr ⟨e, he, rfl⟩, ?_, ?_⟩
    · rw [collectFields_id]
      exact hid
    · rw [collectFields_info]
      exact hf

theorem linkEnum_id (f : Field) : (db.linkEnum i f).id = f.id := by
  unfold linkEnum
  split <;> rfl

theorem linkEnum_info (f : Field) : (db.linkEnum i f).toFieldInfo = f.toFieldInfo := by
  unfold linkEnum
  split <;> rfl

/-- A field that is linked to an enum is not linked to another one by binding that, for it is not of
its type. -/
theorem enumId_linkEnum (hd : db.Typed) (hn : (db.arena .enum).Nodup) (hnamed : db.Named)
    (hf : f ∈ db.fields) (hij : j ≠ i) :
    (db.linkEnum i f).enumId = some j ↔ f.enumId = some j := by
  unfold linkEnum
  split
  · rename_i hmatch
    have hother : f.enumId ≠ some j := fun hj =>
      hij (hnamed.typedBy_unique (hd f hf j hj) (typedBy_of_matchesEnum hn hmatch))
    simp [hother, Ne.symm hij]
  · rfl

theorem enumId_linkEnum_self :
    (db.linkEnum i f).enumId = some i ↔ f.enumId = some i ∨ db.matchesEnum i f = true := by
  unfold linkEnum
  split
  · simp_all
  · simp_all

theorem mem_collectFields {e : Enum} {k : Id .field} : k ∈ (db.collectFields i e).fields ↔
    k ∈ e.fields ∨ e.id = i ∧ ∃ f ∈ db.fields, db.matchesEnum i f = true ∧ f.id = k := by
  unfold collectFields
  split
  · rename_i hid
    simp [mem_foldl_pushNew, matchingFields, hid, and_assoc]
  · rename_i hid
    simp [hid]

theorem Mutual.bindEnum (h : db.Mutual) (hd : db.Typed) (hn : ∀ k, (db.arena k).Nodup)
    (hnamed : db.Named) (i : Id .enum) : (db.bindEnum i).Mutual where
  link := by
    intro f' hf' e' he'
    rw [fields_bindEnum] at hf'
    rw [enums_bindEnum] at he'
    obtain ⟨f, hf, rfl⟩ := List.mem_map.mp hf'
    obtain ⟨e, he, rfl⟩ := List.mem_map.mp he'
    rw [collectFields_id, linkEnum_id, mem_collectFields, ← h.link f hf e he]
    by_cases hid : e.id = i
    · rw [hid, enumId_linkEnum_self]
      have hown : (∃ g ∈ db.fields, db.matchesEnum i g = true ∧ g.id = f.id) ↔
          db.matchesEnum i f = true := by
        constructor
        · rintro ⟨g, hg, hmatch, hgid⟩
          exact List.inj_on_of_nodup_map (hn .field) hg hf hgid ▸ hmatch
        · exact fun hmatch => ⟨f, hf, hmatch, rfl⟩
      rw [hown]
      simp
    · rw [enumId_linkEnum hd (hn .enum) hnamed hf hid]
      simp [hid]
  once := by
    intro e' he'
    rw [enums_bindEnum] at he'
    obtain ⟨e, he, rfl⟩ := List.mem_map.mp he'
    unfold collectFields
    split
    · exact nodup_foldl_pushNew (h.once e he) _
    · exact h.once e he

theorem collected_bindEnum (hn : (db.arena .enum).Nodup) (i : Id .enum) :
    (db.bindEnum i).Collected i := by
  intro f' hf' htyped
  rw [fields_bindEnum] at hf'
  obtain ⟨f, hf, rfl⟩ := List.mem_map.mp hf'
  rw [typedBy_bindEnum, linkEnum_info] at htyped
  exact enumId_linkEnum_self.mpr (.inr ((matchesEnum_iff_typedBy hn).mpr htyped))

/-- Binding an enum leaves alone the fields that another one has collected. -/
theorem Collected.bindEnum (h : db.Collected j) (hd : db.Typed) (hn : (db.arena .enum).Nodup)
    (hnamed : db.Named) (i : Id .enum) : (db.bindEnum i).Collected j := by
  by_cases hij : j = i
  · subst hij
    exact collected_bindEnum hn j
  · intro f' hf' htyped
    rw [fields_bindEnum] at hf'
    obtain ⟨f, hf, rfl⟩ := List.mem_map.mp hf'
    rw [typedBy_bindEnum, linkEnum_info] at htyped
    exact (enumId_linkEnum hd hn hnamed hf hij).mpr (h f hf htyped)

theorem relink_eq_self {g : Table → Table} {g' : Enum → Enum} (hg : ∀ t ∈ db.tables, g t = t)
    (hg' : ∀ e ∈ db.enums, g' e = e) : db.relink g g' = db := by
  have hschemas : (db.schemas.map fun s : Schema =>
      { s with tables := s.tables.map g, enums := s.enums.map g' }) = db.schemas := by
    apply map_eq_self
    intro s hs
    rw [map_eq_self fun t ht => hg t (List.mem_flatMap.mpr ⟨s, hs, ht⟩),
      map_eq_self fun e he => hg' e (List.mem_flatMap.mpr ⟨s, hs, he⟩)]
  rw [relink, hschemas]

/-- An enum that has collected its fields can be bound again. -/
theorem Mutual.bindEnum_of_collected (h : db.Mutual) (hn : (db.arena .enum).Nodup)
    (hi : db.Collected i) : db.bindEnum i = db := by
  have hlinked : ∀ f ∈ db.fields, db.matchesEnum i f = true → f.enumId = some i :=
    fun f hf hmatch => hi f hf ((matchesEnum_iff_typedBy hn).mp hmatch)
  rw [bindEnum_eq]
  apply relink_eq_self
  · intro t ht
    rw [map_eq_self]
    intro f hf
    unfold linkEnum
    split
    · rename_i hmatch
      rw [← hlinked f (List.mem_flatMap.mpr ⟨t, ht, hf⟩) hmatch]
    · rfl
  · intro e he
    unfold collectFields
    split
    · rename_i hid
      rw [foldl_pushNew_of_subset]
      intro k hk
      obtain ⟨f, hf, rfl⟩ := List.mem_map.mp hk
      obtain ⟨hf, hmatch⟩ := List.mem_filter.mp hf
      exact (h.link f hf e he).mp (hid ▸ hlinked f hf hmatch)
    · rfl

end Database

/-! Entities that are new are not linked. -/

namespace Database

variable {db : Database} {id : Id .schema} {e : Entity}

theorem mem_enums_place {en : Enum} (h : en ∈ (db.place id e).enums) :
    en ∈ db.enums ∨ e = .enum en := by
  obtain ⟨s', hs', hen⟩ := List.mem_flatMap.mp h
  obtain ⟨t, ht, rfl⟩ := mem_updateSchema.mp hs'
  obtain ⟨s, hs, rfl⟩ := mem_relink.mp ht
  have hold : ∀ en ∈ s.enums.map (fun e => e), en ∈ db.enums := by
    rw [List.map_id']
    exact fun en hen => List.mem_flatMap.mpr ⟨s, hs, hen⟩
  split at hen
  · cases e with
    | enum new =>
      rcases List.mem_append.mp hen with hen | hen
      · exact .inl (hold en hen)
      · exact .inr (congrArg Entity.enum (List.mem_singleton.mp hen).symm)
    | _ => exact .inl (hold en hen)
  · exact .inl (hold en hen)

end Database

namespace Assembly

variable {m : Remit} {a b : Assembly} {s : Schema} {e : Entity}

/-- Enough is told of an assembly that binding an enum links both sides. -/
structure Balanced (a : Assembly) : Prop extends a.Steady where
  both : a.database.Mutual

/-- A field that is being inserted has a new identifier. -/
theorem Inserts.new_field {t : Table} (h : a.Sound) (hab : a.Inserts s (.table t) b) {f : Field}
    (hf : f ∈ t.fields) : f.id ∉ a.database.arena .field := by
  intro hmem
  have hown : f.id.toNat ∈ Entity.numbers (.table t) .field := by
    have hnumber : f.id.toNat ∈ t.fields.flatMap (·.id.number .field) :=
      List.mem_flatMap.mpr ⟨f, hf, by simp [Id.number]⟩
    simp only [Entity.numbers, Table.numbers, List.mem_append]
    exact .inl (.inr hnumber)
  have hbelow := h.numbered.below .field _ (Database.mem_arena.mp hmem)
  exact Nat.not_lt_of_le (hab.ids.mem_bounds hown).1 hbelow

theorem Inserts.mutual_place (hab : a.Inserts s e b) (h : a.Balanced) :
    (a.database.place s.id e).Mutual where
  link := by
    intro f' hf' en hen
    rcases Database.mem_fields_place_wiring hf' with ⟨f, hf, heq⟩ | ⟨t, rfl, hft⟩
    · have hid : f.id = f'.id := congrArg (·.id) heq
      have hlink : f.enumId = f'.enumId := congrArg (·.enumId) heq
      rw [← hid, ← hlink]
      rcases Database.mem_enums_place hen with hen | rfl
      · exact h.both.link f hf en hen
      · have hnone : en.fields = [] := hab.fits.linked
        have hfree : f.enumId ≠ some en.id :=
          fun hlinked => hab.new_enum h.toSound (h.linked.enumId hf hlinked)
        simp [hnone, hfree]
    · rcases Database.mem_enums_place hen with hen | hen
      · have hnone : f'.enumId = none := (hab.fits.linked.fields f' hft).enumId
        have hout : f'.id ∉ en.fields :=
          fun hin => hab.new_field h.toSound hft (h.linked.enumFields hen hin)
        simp [hnone, hout]
      · cases hen
  once := by
    intro en hen
    rcases Database.mem_enums_place hen with hen | rfl
    · exact h.both.once en hen
    · have hnone : en.fields = [] := hab.fits.linked
      rw [hnone]
      exact .nil

theorem Balanced.change (h : a.Balanced) (hab : Change m a b) : b.Balanced where
  toSteady := h.toSteady.change hab
  both := by
    cases hab with
    | spend hab =>
      rw [hab.database]
      exact h.both
    | mark => exact ⟨h.both.link, h.both.once⟩
    | @opens s _ hab =>
      have hfields : (a.database.addSchema s).fields = a.database.fields := by
        rw [hab.empty]
        simp [Database.fields, Database.tables, Database.addSchema]
      have henums : (a.database.addSchema s).enums = a.database.enums := by
        rw [hab.empty]
        simp [Database.enums, Database.addSchema]
      rw [hab.database]
      constructor
      · rw [hfields, henums]
        exact h.both.link
      · rw [henums]
        exact h.both.once
    | @inserts s e _ hab =>
      have hplaced := hab.mutual_place h
      rw [hab.database]
      rcases a.database.commit_cases s.id e with ⟨-, heq⟩ | ⟨en, -, -, heq⟩
      · rw [heq]
        exact hplaced
      · obtain ⟨hnodup, hnamed⟩ := hab.told_place h.toSound
        rw [heq]
        exact hplaced.bindEnum (hab.typed h.toSteady) hnodup hnamed en.id
    | bindEnum i => exact h.both.bindEnum h.typed h.nodup_arena h.named i

theorem Balanced.binds (h : a.Balanced) (hab : Binds a b) : b.Balanced where
  toSteady := h.toSteady.binds hab
  both := by
    have hfields := (h.bound hab).fields_eq
    have henums := (h.bound hab).enums_eq
    constructor
    · rw [hfields, henums]
      exact h.both.link
    · rw [henums]
      exact h.both.once

theorem balanced_start (c : Config) (project : DatabaseInfo) : (start c project).Balanced where
  toSteady := steady_start c project
  both := ⟨fun _ hf => absurd hf List.not_mem_nil, fun _ he => absurd he List.not_mem_nil⟩

theorem Reachable.balanced (h : a.Reachable) : a.Balanced :=
  h.keep balanced_start (fun _ _ => Balanced.change) fun _ _ => Balanced.binds

/-! Binding all enums in turn. -/

theorem Balanced.bindEnum (h : a.Balanced) (i : Id .enum) :
    Balanced ⟨a.database.bindEnum i, a.ids⟩ :=
  h.change (m := .full) (.bindEnum i trivial)

theorem typedBy_foldl (es : List Enum) (db : Database) {f : FieldInfo} {i : Id .enum} :
    (es.foldl (fun db e => db.bindEnum e.id) db).TypedBy f i ↔ db.TypedBy f i := by
  induction es generalizing db with
  | nil => rfl
  | cons e es ih => exact (ih _).trans Database.typedBy_bindEnum

/-- What has collected its fields by now, or is bound later, has done so in the end. -/
theorem Balanced.collected_foldl (h : a.Balanced) (es : List Enum) {i : Id .enum}
    (hi : a.database.Collected i ∨ i ∈ es.map (·.id)) :
    (es.foldl (fun db e => db.bindEnum e.id) a.database).Collected i := by
  induction es generalizing a with
  | nil => exact hi.resolve_right List.not_mem_nil
  | cons e es ih =>
    apply ih (h.bindEnum e.id)
    rcases hi with hi | hi
    · exact .inl (hi.bindEnum h.typed (h.nodup_arena .enum) h.named e.id)
    · rcases List.mem_cons.mp hi with rfl | hi
      · exact .inl (Database.collected_bindEnum (h.nodup_arena .enum) e.id)
      · exact .inr hi

theorem Balanced.collected_bindEnums (h : a.Balanced) (i : Id .enum) :
    a.database.bindEnums.Collected i := by
  intro f hf htyped
  obtain ⟨s, hs, e, he, hid, -⟩ := (typedBy_foldl a.database.enums a.database).mp htyped
  have hmem : i ∈ a.database.enums.map (·.id) :=
    List.mem_map.mpr ⟨e, List.mem_flatMap.mpr ⟨s, hs, he⟩, hid⟩
  exact h.collected_foldl a.database.enums (.inr hmem) f hf htyped

theorem Balanced.bindEnum_eq_self (h : a.Balanced) {i : Id .enum} (hi : a.database.Collected i) :
    a.database.bindEnum i = a.database :=
  h.both.bindEnum_of_collected (h.nodup_arena .enum) hi

theorem Balanced.foldl_eq_self (h : a.Balanced) (es : List Enum)
    (hes : ∀ e ∈ es, a.database.Collected e.id) :
    es.foldl (fun db e => db.bindEnum e.id) a.database = a.database := by
  induction es with
  | nil => rfl
  | cons e es ih =>
    rw [List.foldl_cons, h.bindEnum_eq_self (hes e List.mem_cons_self)]
    exact ih fun e he => hes e (List.mem_cons_of_mem _ he)

end Assembly

/-- A field has an enum as its type, by the name of its type and that of its schema or the default
one. -/
def Database.HasType (db : Database) (f : Field) (s : Schema) (e : Enum) : Prop :=
  f.type.typeName = e.name ∧ f.type.schemaNameOr db.config.defaultSchemaName = s.name

instance (db : Database) (f : Field) (s : Schema) (e : Enum) : Decidable (db.HasType f s e) :=
  inferInstanceAs (Decidable (_ ∧ _))

/-- The fields and the enums of a database agree about the links between them, and these are to the
types of the fields. -/
structure Database.Symmetric (db : Database) : Prop where
  known : ∀ f ∈ db.fields, ∀ i, f.enumId = some i → ∃ e ∈ db.enums, e.id = i
  present : ∀ e ∈ db.enums, ∀ i ∈ e.fields, ∃ f ∈ db.fields, f.id = i
  link : ∀ f ∈ db.fields, ∀ e ∈ db.enums, f.enumId = some e.id ↔ f.id ∈ e.fields
  once : ∀ e ∈ db.enums, e.fields.Nodup
  type : ∀ f ∈ db.fields, ∀ s ∈ db.schemas, ∀ e ∈ s.enums, f.enumId = some e.id →
    db.HasType f s e

/-- All fields are linked to the enums that are their types, as far as there are any. -/
structure Database.FullyBound (db : Database) : Prop where
  link : ∀ f ∈ db.fields, ∀ s ∈ db.schemas, ∀ e ∈ s.enums,
    f.enumId = some e.id ↔ db.HasType f s e
  linked : ∀ f ∈ db.fields,
    f.enumId.isSome ↔ ∃ s ∈ db.schemas, ∃ e ∈ s.enums, db.HasType f s e

namespace Assembly

/-- Binding an enum, or all of them, is done once and for all, and tells how many fields have the
enum as their type. -/
structure BindsEnums (a : Assembly) : Prop where
  full : (a.after .bindEnums).database.FullyBound
  again : (a.after .bindEnums).after .bindEnums = a.after .bindEnums
  each : ∀ i, (a.after .bindEnums).after (.bindEnum i) = a.after .bindEnums
  same : ∀ i, (a.after (.bindEnum i)).after (.bindEnum i) = a.after (.bindEnum i)
  count : ∀ s ∈ a.database.schemas, ∀ e ∈ s.enums,
    ((Operation.bindEnum e.id).perform.run a).1 =
      .ok (.fields (a.database.fields.countP (a.database.HasType · s e)))

end Assembly

section HasType

variable {db : Database} {f : Field} {s : Schema} {e : Enum}

theorem Database.isOfEnum_iff_hasType :
    f.isOfEnum db.config.defaultSchemaName s.name e.name = true ↔ db.HasType f s e := by
  simp only [FieldInfo.isOfEnum, HasType, Bool.and_eq_true, decide_eq_true_eq]

theorem Database.typedBy_iff_hasType (hn : (db.arena .enum).Nodup) (hs : s ∈ db.schemas)
    (he : e ∈ s.enums) : db.TypedBy f.toFieldInfo e.id ↔ db.HasType f s e := by
  rw [← isOfEnum_iff_hasType]
  constructor
  · rintro ⟨s', hs', e', he', hid, hf⟩
    rw [arena, enums, List.map_flatMap] at hn
    obtain ⟨rfl, rfl⟩ := eq_of_nodup_flatMap hn hs' he' hs he hid
    exact hf
  · exact fun hf => ⟨s, hs, e, he, rfl, hf⟩

end HasType

namespace Assembly

variable {a : Assembly}

theorem Balanced.symmetric (h : a.Balanced) : a.database.Symmetric where
  known _ hf _ hi := List.mem_map.mp (h.linked.enumId hf hi)
  present _ he _ hi := List.mem_map.mp (h.linked.enumFields he hi)
  link := h.both.link
  once := h.both.once
  type f hf _ hs e he hlink :=
    (Database.typedBy_iff_hasType (h.nodup_arena .enum) hs he).mp (h.typed f hf e.id hlink)

theorem Balanced.fullyBound (h : a.Balanced)
    (hall : ∀ e ∈ a.database.enums, a.database.Collected e.id) : a.database.FullyBound := by
  have hlink : ∀ f ∈ a.database.fields, ∀ s ∈ a.database.schemas, ∀ e ∈ s.enums,
      f.enumId = some e.id ↔ a.database.HasType f s e := by
    intro f hf s hs e he
    rw [← Database.typedBy_iff_hasType (h.nodup_arena .enum) hs he]
    exact ⟨h.typed f hf e.id, hall e (List.mem_flatMap.mpr ⟨s, hs, he⟩) f hf⟩
  refine ⟨hlink, ?_⟩
  intro f hf
  rw [Option.isSome_iff_exists]
  constructor
  · rintro ⟨i, hi⟩
    obtain ⟨e, he, rfl⟩ := h.symmetric.known f hf i hi
    obtain ⟨s, hs, he⟩ := List.mem_flatMap.mp he
    exact ⟨s, hs, e, he, (hlink f hf s hs e he).mp hi⟩
  · rintro ⟨s, hs, e, he, htype⟩
    exact ⟨e.id, (hlink f hf s hs e he).mpr htype⟩

theorem Balanced.bindsEnums (h : a.Balanced) : a.BindsEnums := by
  have hall : Balanced ⟨a.database.bindEnums, a.ids⟩ :=
    (changes_bindEnums (m := .full) trivial a.database.enums a).keep
      (fun _ _ => Balanced.change) h
  have hcollected : ∀ i, a.database.bindEnums.Collected i := h.collected_bindEnums
  refine ⟨hall.fullyBound fun e _ => hcollected e.id, ?_, ?_, ?_, ?_⟩
  · have hagain : a.database.bindEnums.bindEnums = a.database.bindEnums :=
      hall.foldl_eq_self _ fun e _ => hcollected e.id
    exact congrArg (Assembly.mk · a.ids) hagain
  · intro i
    exact congrArg (Assembly.mk · a.ids) (hall.bindEnum_eq_self (hcollected i))
  · intro i
    have hagain := (h.bindEnum i).bindEnum_eq_self
      (Database.collected_bindEnum (h.nodup_arena .enum) i)
    exact congrArg (Assembly.mk · a.ids) hagain
  · intro s hs e he
    have hcount : (a.database.matchingFields e.id).length =
        a.database.fields.countP (a.database.HasType · s e) := by
      rw [Database.matchingFields, List.countP_eq_length_filter]
      congr 1
      apply List.filter_congr
      intro f _
      rw [Bool.eq_iff_iff, Database.matchesEnum_iff_typedBy (h.nodup_arena .enum),
        Database.typedBy_iff_hasType (h.nodup_arena .enum) hs he, decide_eq_true_eq]
    rw [← hcount]
    rfl

/-- In every state that can be reached, enums and fields agree about the links between them; binding
all enums links all fields that have one as their type, and binding twice is binding once. -/
theorem Reachable.symmetric_enums (h : a.Reachable) : a.database.Symmetric ∧ a.BindsEnums :=
  ⟨h.balanced.symmetric, h.balanced.bindsEnums⟩

/-- A parcel's size is linked as its enum is inserted, its state not before all enums are bound. -/
theorem symmetric_enums_parcels : ∃ a, build .parcels {} = .ok a ∧ a.database.Symmetric ∧
    a.BindsEnums ∧ a.database.fields.map (·.enumId) = [none, some ⟨2⟩] ∧
      (a.after .bindEnums).database.fields.map (·.enumId) = [some ⟨1⟩, some ⟨2⟩] ∧
      ((Operation.bindEnum ⟨2⟩).perform.run a).1 = .ok (.fields 1) := by
  have hbuilt : (build .parcels {}).toOption.any (fun a =>
      decide (a.database.fields.map (·.enumId) = [none, some ⟨2⟩] ∧
        (a.after .bindEnums).database.fields.map (·.enumId) = [some ⟨1⟩, some ⟨2⟩] ∧
          ((Operation.bindEnum ⟨2⟩).perform.run a).1 = .ok (.fields 1))) = true := by
    decide +kernel
  obtain ⟨a, ha, heval⟩ := exists_ok_of_any hbuilt
  obtain ⟨hsymmetric, hbinds⟩ := (Reachable.build ha).symmetric_enums
  exact ⟨a, ha, hsymmetric, hbinds, of_decide_eq_true heval⟩

end Assembly

end Catalog
