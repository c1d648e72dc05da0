import Catalog.Proofs.EnumLinks.Growth

/-!
Enums that are bound as they are inserted are linked to the fields that are there by then. A schema
declaration inserts its tables before its enums, so its enums are linked to fields of the schemas up
to its own.
-/
namespace Catalog

open Wiring (HasField HasEnum Told Links)

namespace Assembly

variable {c : Config} {T T' : Place → Place → Prop} {m : Remit} {a b : Assembly}

/-- The wiring of a state under construction: enums are linked at most as they are inserted, and
then to the fields at those places that a condition admits. -/
structure Wired (c : Config) (T : Place → Place → Prop) (a : Assembly) : Prop where
  sound : a.Sound
  config : a.database.config = c
  links : Links c.defaultSchemaName (fun p q _ => c.enumBinding = .onInsert ∧ T p q)
    a.database.wiring

theorem Wired.congr (h : a.Wired c T) (hT : ∀ {p q f n e}, HasField a.database.wiring p f →
    HasEnum a.database.wiring q n e → (T p q ↔ T' p q)) : a.Wired c T' where
  sound := h.sound
  config := h.config
  links := h.links.congr fun hf he => and_congr_right fun _ => hT hf he

theorem Sound.enumId_ne (h : a.Sound) {i : Id .enum} (hi : i ∉ a.database.arena .enum) {f : Field}
    (hf : f ∈ Wiring.fields a.database.wiring) : f.enumId ≠ some i := by
  intro hlinked
  rw [Database.fields_wiring] at hf
  obtain ⟨f', hf', rfl⟩ := List.mem_map.mp hf
  exact hi (h.linked.enumId hf' hlinked)

theorem mem_arena_of_hasEnum {q : Place} {n : String} {e : Enum}
    (h : HasEnum a.database.wiring q n e) : e.id ∈ a.database.arena .enum := by
  obtain ⟨s, hs, -, he⟩ := Database.hasEnum_wiring_iff.mp h
  exact List.mem_map.mpr
    ⟨e, List.mem_flatMap.mpr ⟨s, List.mem_of_getElem? hs, List.mem_of_getElem? he⟩, rfl⟩

/-- A step of construction keeps the wiring if a table that is inserted is not admitted to the enums
before it, and an enum that is inserted admits the fields before it. -/
theorem Wired.change (h : a.Wired c T) (hb : ¬ m.binds) (hab : Change m a b)
    (htable : ∀ {i s t q n e}, a.database.schemas[i]? = some s → m.inserts s (.table t) →
      HasEnum a.database.wiring q n e → ¬ T ⟨i, s.tables.length⟩ q)
    (henum : ∀ {i s e p f}, a.database.schemas[i]? = some s → m.inserts s (.enum e) →
      HasField a.database.wiring p f → T p ⟨i, s.enums.length⟩) : b.Wired c T where
  sound := h.sound.change hab
  config := (config_change hab).trans h.config
  links := by
    have hlength : ∀ s : Schema, s.wiring.tables.length = s.tables.length :=
      fun _ => List.length_map _
    cases h.sound.rewires hb hab with
    | same hw => exact hw ▸ h.links
    | schema name hw => exact hw ▸ h.links.addSchema name
    | @table i s t hs hm hfs hw =>
      rw [hw]
      apply h.links.addTable hfs
      intro w q n e hi he hboth
      rw [Database.getElem?_wiring hs, Option.some.injEq] at hi
      rw [← hi, hlength] at hboth
      exact htable hs hm he hboth.2
    | @enum i s e hs hm hnone hnew hbinding hw =>
      have hnever : ¬ c.enumBinding = .onInsert := by
        rw [← h.config, hbinding]
        exact nofun
      rw [hw]
      apply h.links.addEnum hnone fun f hf => h.sound.enumId_ne hnew hf
      · exact fun _ => Iff.rfl
      · exact fun _ hboth => hnever hboth.1
    | @boundEnum i s e hs hm hnone hnew hbinding hw =>
      rw [h.config] at hw hbinding
      have htold : Told (Wiring.addEnum i e a.database.wiring) := by
        apply Wiring.told_of_bind
        rw [← hw]
        exact Database.told_wiring (h.sound.change hab).nodup_arena (h.sound.change hab).named
      rw [hw]
      apply h.links.addBoundEnum (Database.getElem?_wiring hs) hnone
        (fun f hf => h.sound.enumId_ne hnew hf) _ htold
      · exact fun hf => ⟨hbinding, henum hs hm hf⟩
      · exact fun he' heq => hnew (heq ▸ mem_arena_of_hasEnum he')

/-- Where no enum is inserted, no enum is new. -/
theorem Sound.hasEnum_of_change (h : a.Sound) (hb : ¬ m.binds)
    (hm : ∀ s e, ¬ m.inserts s (.enum e)) (hab : Change m a b) {q : Place} {n : String} {e : Enum}
    (he : HasEnum b.database.wiring q n e) : HasEnum a.database.wiring q n e := by
  cases h.rewires hb hab with
  | same hw => exact hw ▸ he
  | schema name hw => exact Wiring.hasEnum_addSchema (hw ▸ he)
  | table _ _ _ hw => exact Wiring.hasEnum_addTable (hw ▸ he)
  | enum _ hi => exact absurd hi (hm _ _)
  | boundEnum _ hi => exact absurd hi (hm _ _)

/-! Declared schemas: records are inserted into the last schema, and its tables come before its
enums. -/

/-- The schema that was added last has some identifier. -/
def Ends (id : Id .schema) (a : Assembly) : Prop :=
  (a.database.arena .schema).getLast? = some id

/-- The schema that was added last has no enums. -/
def Bare (a : Assembly) : Prop :=
  ∀ q n e, HasEnum a.database.wiring q n e → q.schema + 1 < a.database.schemas.length

theorem Ends.position {id : Id .schema} (h : a.Ends id) (hs : a.Sound) {i : Nat} {s : Schema}
    (hi : a.database.schemas[i]? = some s) (hid : s.id = id) :
    i + 1 = a.database.schemas.length := by
  have hn := hs.nodup_arena .schema
  have hlt := (List.getElem?_eq_some_iff.mp hi).1
  rw [Ends, Database.arena, List.getLast?_map, Option.map_eq_some_iff] at h
  obtain ⟨u, hu, huid⟩ := h
  rw [List.getLast?_eq_getElem?] at hu
  have heq := index_eq_of_nodup hn hi hu (hid.trans huid.symm)
  omega

theorem schema_lt_of_hasEnum {q : Place} {n : String} {e : Enum}
    (h : HasEnum a.database.wiring q n e) : q.schema < a.database.schemas.length := by
  obtain ⟨s, hs, -⟩ := Database.hasEnum_wiring_iff.mp h
  exact (List.getElem?_eq_some_iff.mp hs).1

theorem schema_lt_of_hasField {p : Place} {f : Field} (h : HasField a.database.wiring p f) :
    p.schema < a.database.schemas.length := by
  obtain ⟨w, -, hw, -⟩ := h
  have hlt := (List.getElem?_eq_some_iff.mp hw).1
  rw [Database.wiring, List.length_map] at hlt
  exact hlt

/-- A declaration is being carried out: an enum is linked to the fields of the schemas up to its
own. -/
structure Declares (c : Config) (id : Id .schema) (a : Assembly) : Prop where
  wired : a.Wired c fun p q => p.schema ≤ q.schema
  ends : a.Ends id

variable {id : Id .schema} {k : Kind}

theorem Declares.change (h : a.Declares c id) (hab : Change (.into id k) a b)
    (hk : k = .table → a.Bare) : b.Declares c id where
  wired := by
    apply h.wired.change (fun h => h) hab
    · rintro i s t q n e hi ⟨hid, hkind⟩ he hle
      have hpos := h.ends.position h.wired.sound hi hid
      have hlt := hk hkind.symm q n e he
      dsimp only at hle
      omega
    · rintro i s e p f hi ⟨hid, -⟩ hf
      have hpos := h.ends.position h.wired.sound hi hid
      have hlt := schema_lt_of_hasField hf
      dsimp only
      omega
  ends := by
    rcases hab.heads_cases with heq | ⟨hm, -⟩
    · have hids := congrArg (List.map (·.2)) heq
      rw [List.map_map, List.map_map] at hids
      have harena : b.database.arena .schema = a.database.arena .schema := hids
      rw [Ends, harena]
      exact h.ends
    · exact hm.elim

theorem Bare.change (h : a.Bare) (hs : a.Sound) (hab : Change (.into id k) a b)
    (hk : k ≠ .enum) : b.Bare := by
  intro q n e he
  have he' := hs.hasEnum_of_change (m := .into id k) (fun h => h) (fun _ _ hm => hk hm.2.symm) hab
    he
  have hlength := hab.heads.length_le
  rw [List.length_map, List.length_map] at hlength
  exact Nat.lt_of_lt_of_le (h q n e he') hlength

theorem Wired.opens (h : a.Wired c T) (hab : Change .opening a b) : b.Wired c T :=
  h.change (fun h => h) hab (fun _ hm => hm.elim) fun _ hm => hm.elim

theorem evolves_pushSchema_declares (info : SchemaInfo) (token : Span) :
    Evolves .full (Wired c fun p q => p.schema ≤ q.schema) (pushSchema info token)
      fun s a => (a.Declares c s.id ∧ a.Bare) ∧ a.HasSchema s.id := by
  intro a ha
  apply (meets_pushSchema info token).mono
  · rintro s b ⟨hb, -, -⟩
    have hab : Change .opening a b := .opens hb trivial
    have harena : b.database.arena .schema = a.database.arena .schema ++ [s.id] := by
      rw [hb.database, Database.addSchema, Database.arena, List.map_append]
      rfl
    have hbare : b.Bare := by
      intro q n e he
      have he' := ha.sound.hasEnum_of_change (fun h => h) (fun _ _ h => h) hab he
      have hlt := schema_lt_of_hasEnum he'
      rw [hb.database, Database.addSchema, List.length_append, List.length_singleton]
      omega
    have hends : b.Ends s.id := by
      rw [Ends, harena, List.getLast?_concat]
    have hmem : b.HasSchema s.id := by
      refine ⟨s, ?_, rfl⟩
      rw [hb.database]
      exact List.mem_append_right _ List.mem_cons_self
    exact ⟨.single (hab.mono (Remit.within_full _)), ⟨⟨ha.opens hab, hends⟩, hbare⟩, hmem⟩
  · exact fun _ _ hb => .single (.spend hb)

theorem evolves_process_declares (d : Decl.Schema) :
    Evolves .full (fun a => (a.Declares c id ∧ a.Bare) ∧ a.HasSchema id) (process id d)
      fun _ a => a.Wired c fun p q => p.schema ≤ q.schema := by
  have records : ∀ {δ ε : Type} {push : δ → Construction ε} {entity : ε → Entity} {k : Kind}
      {ds : List δ}, (∀ d a s, a.database.schema? id = some s →
        (push d).Meets a (fun v b => a.Inserts s (entity v) b) fun _ b => a.Spent b) →
      (∀ v, (entity v).kind = k) → k ≠ .table →
      Evolves .full (fun a => a.HasSchema id ∧ a.Declares c id) (Attempt.forEach push ds)
        fun _ a => a.HasSchema id ∧ a.Declares c id :=
    fun h hk hne => ((evolves_inserts h hk).keeping fun _ _ ha hab =>
      ha.change hab fun heq => absurd heq hne).within (Remit.within_full _)
  have tables : Evolves .full (fun a => (a.Declares c id ∧ a.Bare) ∧ a.HasSchema id)
      (Attempt.forEach (pushTable id) d.tables) fun _ a => a.HasSchema id ∧ a.Declares c id :=
    (((evolves_inserts (fun t _ _ hs => meets_pushTable hs t) fun _ => rfl).keeping
      fun _ _ ha hab => ⟨ha.1.change hab fun _ => ha.2, ha.2.change ha.1.wired.sound hab nofun⟩).imp
        (fun _ h => ⟨h.2, h.1⟩) fun _ _ h => ⟨h.1, h.2.1⟩).within (Remit.within_full _)
  unfold process
  apply tables.bind
  intro _
  apply (records (fun t _ _ hs => meets_pushTag hs t) (fun _ => rfl) nofun).bind
  intro _
  apply (records (fun e _ _ hs => meets_pushEnum hs e) (fun _ => rfl) nofun).bind
  intro _
  apply (records (fun r _ _ hs => meets_pushRef hs r) (fun _ => rfl) nofun).bind
  intro _
  exact (records (fun g _ _ hs => meets_pushTableGroup hs g) (fun _ => rfl) nofun).imp
    (fun _ h => h) fun _ _ h => h.2.wired

theorem evolves_declareSchema_wired (d : Decl.Schema) :
    Evolves .full (Wired c fun p q => p.schema ≤ q.schema) (declareSchema d)
      fun _ a => a.Wired c fun p q => p.schema ≤ q.schema := by
  unfold declareSchema
  apply (evolves_pushSchema_declares d.toSchemaInfo d.token).bind
  intro s
  apply (evolves_process_declares d).bind
  intro _
  exact ((evolves_markIfDefault s.id).keeps fun _ _ => Wired.opens).within (Remit.within_full _)

end Assembly

end Catalog
