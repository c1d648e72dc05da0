import Catalog.Proofs.EnumLinks.Insertion
import Catalog.Proofs.Validity

/-!
The enum links of a build. Declared schemas come first, one after another, then all other tables,
and then all other enums. So an enum that is bound when it is inserted is linked to all fields if it
is declared outside of schemas, and otherwise to those of tables in the declared schemas up to its
own.
-/
namespace Catalog

open Wiring (HasField HasEnum Told Links)

namespace Decl.Bundle

/-- The table that a declared schema nests at a place. -/
def nestedTable? (b : Bundle) (p : Place) : Option Table :=
  b.schemas[p.schema]?.bind (·.tables[p.item]?)

/-- The enum that a declared schema nests at a place. -/
def nestedEnum? (b : Bundle) (q : Place) : Option Enum :=
  b.schemas[q.schema]?.bind (·.enums[q.item]?)

/-- The table at one place is declared before the enum at another. -/
def Before (b : Bundle) (p q : Place) : Prop :=
  b.nestedEnum? q = none ∨ (b.nestedTable? p).isSome = true ∧ p.schema ≤ q.schema

end Decl.Bundle

namespace Assembly

variable {c : Config} {m : Remit} {a b : Assembly} {bundle : Decl.Bundle} {k : Kind}

/-- The declared schemas are there with what is nested in them. -/
structure Past (bundle : Decl.Bundle) (ws : List Wiring) : Prop where
  schemas : bundle.schemas.length ≤ ws.length
  nested : ∀ {i : Nat} {d : Decl.Schema} {w : Wiring}, bundle.schemas[i]? = some d →
    ws[i]? = some w → d.tables.length ≤ w.tables.length ∧ d.enums.length ≤ w.enums.length

/-- What comes next in a schema is not nested there. -/
theorem Past.nestedTable? {ws : List Wiring} (h : Past bundle ws) {i : Nat} {w : Wiring}
    (hw : ws[i]? = some w) : bundle.nestedTable? ⟨i, w.tables.length⟩ = none := by
  rw [Decl.Bundle.nestedTable?, Option.bind_eq_none_iff]
  exact fun d hd => List.getElem?_eq_none (h.nested hd hw).1

theorem Past.nestedEnum? {ws : List Wiring} (h : Past bundle ws) {i : Nat} {w : Wiring}
    (hw : ws[i]? = some w) : bundle.nestedEnum? ⟨i, w.enums.length⟩ = none := by
  rw [Decl.Bundle.nestedEnum?, Option.bind_eq_none_iff]
  exact fun d hd => List.getElem?_eq_none (h.nested hd hw).2

theorem Past.grow {ws ws' : List Wiring} (h : Past bundle ws) (hg : Wiring.Grows ws ws') :
    Past bundle ws' where
  schemas := Nat.le_trans h.schemas hg.length
  nested := by
    intro i d w' hd hw'
    rcases hg.sizes i w' hw' with hi | ⟨w, hw, htables, henums⟩
    · have hlt := (List.getElem?_eq_some_iff.mp hd).1
      exact absurd (Nat.le_trans h.schemas hi) (Nat.not_le_of_lt hlt)
    · have hold := h.nested hd hw
      exact ⟨Nat.le_trans hold.1 htables, Nat.le_trans hold.2 henums⟩

theorem Sound.grows_wiring (h : a.Sound) (hb : ¬ m.binds) (hab : Change m a b) :
    Wiring.Grows a.database.wiring b.database.wiring := by
  cases h.rewires hb hab with
  | same hw => exact hw ▸ .refl _
  | schema name hw => exact hw ▸ Wiring.grows_addSchema _ _
  | table _ _ _ hw => exact hw ▸ Wiring.grows_addTable _ _ _
  | enum _ _ _ _ _ hw => exact hw ▸ Wiring.grows_addEnum _ _ _
  | boundEnum _ _ _ _ _ hw => exact hw ▸ (Wiring.grows_addEnum _ _ _).bind _ _

/-- The declared schemas are there, and enums are linked to the fields declared before them. -/
structure Routes (bundle : Decl.Bundle) (c : Config) (a : Assembly) : Prop where
  wired : a.Wired c bundle.Before
  past : Past bundle a.database.wiring

/-- All enums that are there are nested in declared schemas. -/
def Nests (bundle : Decl.Bundle) (a : Assembly) : Prop :=
  ∀ q n e, HasEnum a.database.wiring q n e → (bundle.nestedEnum? q).isSome = true

theorem Routes.change (h : a.Routes bundle c) (hab : Change (.of k) a b)
    (hk : k = .table → a.Nests bundle) : b.Routes bundle c where
  wired := by
    apply h.wired.change (fun h => h) hab
    · rintro i s t q n e hi hkind he hbefore
      have hsome := hk hkind.symm q n e he
      have hnone := h.past.nestedTable? (Database.getElem?_wiring hi)
      have hlength : s.wiring.tables.length = s.tables.length := List.length_map _
      rw [hlength] at hnone
      rcases hbefore with hlater | ⟨hnested, -⟩
      · rw [hlater] at hsome
        cases hsome
      · rw [hnone] at hnested
        cases hnested
    · rintro i s e p f hi - -
      exact .inl (h.past.nestedEnum? (Database.getElem?_wiring hi))
  past := h.past.grow (h.wired.sound.grows_wiring (fun h => h) hab)

theorem Nests.change (h : a.Nests bundle) (hs : a.Sound) (hab : Change (.of k) a b)
    (hk : k ≠ .enum) : b.Nests bundle := by
  intro q n e he
  exact h q n e (hs.hasEnum_of_change (m := .of k) (fun h => h) (fun _ _ hm => hk hm.symm) hab he)

/-- The tables and enums of the declared schemas are the nested ones. -/
theorem Wired.routes {x : Decl.Stage} {project : DatabaseInfo}
    (h : a.Wired c fun p q => p.schema ≤ q.schema) (hm : a.Mirrors c project x)
    (hx : x.outline = bundle.schemas) : a.Routes bundle c ∧ a.Nests bundle := by
  have hpaired : List.Forall₂ (fun (w : Wiring) d => w.tables.length = d.tables.length ∧
      w.enums.length = d.enums.length) a.database.wiring bundle.schemas := by
    rw [← hx, Database.wiring, List.forall₂_map_left_iff]
    apply hm.schemas.imp
    intro s d hd
    exact ⟨(List.length_map _).trans hd.tables.length_eq, hd.enums.length_eq⟩
  have hpast : Past bundle a.database.wiring := by
    refine ⟨Nat.le_of_eq hpaired.length_eq.symm, ?_⟩
    intro i d w hd hw
    obtain ⟨d', hd', htables, henums⟩ := getElem?_of_paired hpaired hw
    obtain rfl := Option.some.inj (hd.symm.trans hd')
    exact ⟨Nat.le_of_eq htables.symm, Nat.le_of_eq henums.symm⟩
  have hnests : a.Nests bundle := by
    rintro q n e ⟨w, hw, -, he⟩
    obtain ⟨d, hd, -, henums⟩ := getElem?_of_paired hpaired hw
    rw [Decl.Bundle.nestedEnum?, hd, Option.bind_some, List.getElem?_eq_getElem]
    · rfl
    · rw [← henums]
      exact (List.getElem?_eq_some_iff.mp he).1
  have hnested : ∀ {p f}, HasField a.database.wiring p f →
      (bundle.nestedTable? p).isSome = true := by
    rintro p f ⟨w, fs, hw, hfs, -⟩
    obtain ⟨d, hd, htables, -⟩ := getElem?_of_paired hpaired hw
    rw [Decl.Bundle.nestedTable?, hd, Option.bind_some, List.getElem?_eq_getElem]
    · rfl
    · rw [← htables]
      exact (List.getElem?_eq_some_iff.mp hfs).1
  refine ⟨⟨h.congr ?_, hpast⟩, hnests⟩
  intro p q f n e hf he
  have hsome := hnests q n e he
  constructor
  · exact fun hle => .inr ⟨hnested hf, hle⟩
  · rintro (hnone | ⟨-, hle⟩)
    · rw [hnone] at hsome
      cases hsome
    · exact hle

/-! Binding tags does not touch the wiring. -/

theorem Bound.wiring (h : Bound a b) : b.database.wiring = a.database.wiring := by
  apply map_eq_of_paired h.schemas
  intro s' s hs
  have htables : s'.tables.map (·.wiring) = s.tables.map (·.wiring) := by
    apply map_eq_of_paired hs.tables
    intro t' t ht
    rw [Table.wiring, Table.wiring, ht.fields]
  have hother : s'.name = s.name ∧ s'.enums = s.enums := by
    rw [hs.same]
    exact ⟨rfl, rfl⟩
  rw [Schema.wiring, Schema.wiring, htables, hother.1, hother.2]

theorem Routes.binds (h : a.Routes bundle c) (hab : Binds a b) : b.Routes bundle c := by
  have hbound := h.wired.sound.bound hab
  have hconfig : b.database.config = a.database.config := by rw [hbound.database]
  exact {
    wired := ⟨h.wired.sound.binds hab, hconfig.trans h.wired.config, hbound.wiring ▸ h.wired.links⟩
    past := hbound.wiring ▸ h.past }

/-! Binding all enums in the end. -/

theorem numbers_foldl_bindEnum (es : List Enum) (db : Database) (k : Kind) :
    (es.foldl (fun db e => db.bindEnum e.id) db).numbers k = db.numbers k := by
  induction es generalizing db with
  | nil => rfl
  | cons e es ih => rw [List.foldl_cons, ih, Database.numbers_bindEnum]

theorem links_bindEnums {d : String} {db : Database} {ids : Allocator} {es : List Enum}
    {done : List (Id .enum)} (hs : Sound ⟨db, ids⟩) (hd : db.config.defaultSchemaName = d)
    (h : Links d (fun _ _ i => i ∈ done) db.wiring) (hes : ∀ e ∈ es, e.id ∈ db.arena .enum)
    (hnew : (done ++ es.map (·.id)).Nodup) :
    Links d (fun _ _ i => i ∈ done ++ es.map (·.id))
      (es.foldl (fun db e => db.bindEnum e.id) db).wiring := by
  induction es generalizing db done with
  | nil =>
    rw [List.map_nil, List.append_nil]
    exact h
  | cons e es ih =>
    have hn := hs.nodup_arena
    obtain ⟨q, n, e', he', hid⟩ := Database.exists_hasEnum_of_mem (hes e List.mem_cons_self)
    have hfree : ∀ f ∈ Wiring.fields db.wiring, f.enumId ≠ some e'.id := by
      intro f hf hlinked
      obtain ⟨p, hf⟩ := Wiring.mem_fields.mp hf
      have hmem := ((h.link hf he').mp hlinked).2
      rw [hid] at hmem
      exact (List.nodup_append.mp hnew).2.2 _ hmem e.id List.mem_cons_self rfl
    have hbound := h.bind (Database.told_wiring hn hs.named) he' hfree
    rw [← hd, ← Database.matchesEnum_eq (hn .enum) he', ← Database.wiring_bindEnum, hid, hd]
      at hbound
    have hmore : Links d (fun _ _ i => i ∈ done ++ [e.id]) (db.bindEnum e.id).wiring :=
      hbound.congr fun _ _ => by rw [List.mem_append, List.mem_singleton]
    have hs' : Sound ⟨db.bindEnum e.id, ids⟩ :=
      hs.change (m := .binding) (.bindEnum e.id trivial)
    have hlist : done ++ (e :: es).map (·.id) = done ++ [e.id] ++ es.map (·.id) := by
      rw [List.map_cons, List.append_assoc, List.singleton_append]
    rw [hlist] at hnew ⊢
    apply ih hs' hd hmore _ hnew
    intro u hu
    rw [Database.mem_arena, Database.numbers_bindEnum, ← Database.mem_arena]
    exact hes u (List.mem_cons_of_mem e hu)

/-- Enums that are bound in the end are linked to all fields that they are the types of. -/
theorem Routes.bindRemaining (h : a.Routes bundle c) : Assembly.bindRemaining.Meets a
    (fun _ b => b.Sound ∧ b.database.config = c ∧ Links c.defaultSchemaName
      (fun p q _ => c.enumBinding = .afterConstruction ∨ bundle.Before p q) b.database.wiring)
    (fun _ _ => True) := by
  apply Attempt.meets_modify
  split
  · rename_i hbinding
    rw [h.wired.config] at hbinding
    refine ⟨h.wired.sound, h.wired.config, h.wired.links.congr fun _ _ => ?_⟩
    simp [hbinding]
  · rename_i hbinding
    rw [h.wired.config] at hbinding
    have hnone : Links c.defaultSchemaName (fun _ _ i => i ∈ ([] : List (Id .enum)))
        a.database.wiring :=
      h.wired.links.congr fun _ _ => by simp [hbinding]
    have hall := links_bindEnums h.wired.sound (by rw [h.wired.config]) hnone
      (fun e he => List.mem_map.mpr ⟨e, he, rfl⟩) (h.wired.sound.nodup_arena .enum)
    have hchanges : Changes .binding a ⟨a.database.bindEnums, a.ids⟩ :=
      changes_bindEnums trivial a.database.enums a
    have hsound : Sound ⟨a.database.bindEnums, a.ids⟩ :=
      hchanges.keep (fun _ _ => Sound.change) h.wired.sound
    have hconfig : a.database.bindEnums.config = a.database.config :=
      hchanges.keep (I := fun b => b.database.config = a.database.config)
        (fun _ _ hb hbb' => (config_change hbb').trans hb) rfl
    refine ⟨hsound, hconfig.trans h.wired.config, Links.congr hall ?_⟩
    intro p q f n e _ he
    have hmem := mem_arena_of_hasEnum (a := ⟨a.database.bindEnums, a.ids⟩) he
    rw [Database.mem_arena, Database.bindEnums,
      numbers_foldl_bindEnum, ← Database.mem_arena] at hmem
    exact ⟨fun _ => .inl hbinding, fun _ => hmem⟩

/-! The whole build. -/

theorem meets_addTagged_routes (apart : bundle.schemas.Pairwise Decl.Schema.Apart) :
    (addTagged bundle).Meets (start c bundle.project)
      (fun _ a => a.Routes bundle c ∧ a.Nests bundle) (fun _ _ => True) := by
  have hstart : (start c bundle.project).Wired c fun p q => p.schema ≤ q.schema := {
    sound := sound_start c bundle.project
    config := rfl
    links := {
      link := by
        rintro p q f n e ⟨w, -, hw, -⟩
        cases hw
      fields := by
        rintro q n e ⟨w, hw, -⟩
        cases hw } }
  have hdeclared : (Attempt.forEach declareSchema bundle.schemas).Meets
      (start c bundle.project) (fun _ a => a.Routes bundle c ∧ a.Nests bundle)
      (fun _ _ => True) := by
    have hcarries : Carries c bundle.project (fun x _ => x.tagged = false)
        (Attempt.forEach declareSchema bundle.schemas) (bundle.schemas.flatMap (·.steps))
        fun _ x _ => x.tagged = false := .forEach fun d _ => carries_declareSchema d
    apply ((Evolves.forEach evolves_declareSchema_wired bundle.schemas _ hstart).and
      (hcarries {} _ (follows_start c bundle.project) rfl)).mono
    · rintro _ a ⟨⟨-, hwired⟩, -, ha, -⟩
      apply hwired.routes ha.mirrors
      rw [Decl.Stage.run_schemas (x := {}) apart]
      rfl
    · exact fun _ _ _ => trivial
  have keeps : ∀ {k}, k ≠ .enum → ∀ a b, a.Routes bundle c ∧ a.Nests bundle →
      Change (.of k) a b → b.Routes bundle c ∧ b.Nests bundle :=
    fun hk _ _ ha hab =>
      ⟨ha.1.change hab fun _ => ha.2, ha.2.change ha.1.wired.sound hab hk⟩
  unfold addTagged
  apply hdeclared.bind
  intro _ a ha
  apply (((evolves_routed (fun _ _ _ d hs => meets_pushTable hs d) fun _ => rfl).keeps
    (keeps nofun)).meets ha).bind
  intro _ a ha
  exact ((evolves_routed (fun _ _ _ d hs => meets_pushTag hs d) fun _ => rfl).keeps
    (keeps nofun)).meets ha

theorem meets_addLinked_links (h : a.Routes bundle c) :
    (addLinked bundle).Meets a
      (fun _ b => b.Sound ∧ b.database.config = c ∧ Links c.defaultSchemaName
        (fun p q _ => c.enumBinding = .afterConstruction ∨ bundle.Before p q) b.database.wiring)
      (fun _ _ => True) := by
  have keeps : ∀ {k}, k ≠ .table → ∀ a b, a.Routes bundle c → Change (.of k) a b →
      b.Routes bundle c :=
    fun hk _ _ ha hab => ha.change hab fun heq => absurd heq hk
  unfold addLinked
  apply (((evolves_routed (fun _ _ _ d hs => meets_pushRef hs d) fun _ => rfl).keeps
    (keeps nofun)).meets h).bind
  intro _ a ha
  apply (((evolves_routed (fun _ _ _ d hs => meets_pushEnum hs d) fun _ => rfl).keeps
    (keeps nofun)).meets ha).bind
  intro _ a ha
  apply (((evolves_routed (fun _ _ _ d hs => meets_pushTableGroup hs d) fun _ => rfl).keeps
    (keeps nofun)).meets ha).bind
  intro _ a ha
  exact ha.bindRemaining

theorem links_of_build (h : build bundle c = .ok a) :
    a.Sound ∧ a.database.config = c ∧ Links c.defaultSchemaName
      (fun p q _ => c.enumBinding = .afterConstruction ∨ bundle.Before p q) a.database.wiring := by
  have apart := Decl.Bundle.apart_of_sound (follows_of_build h).2.mirrors.sound
  have hmeets : (addBundle bundle).Meets (start c bundle.project)
      (fun _ a => a.Sound ∧ a.database.config = c ∧ Links c.defaultSchemaName
        (fun p q _ => c.enumBinding = .afterConstruction ∨ bundle.Before p q) a.database.wiring)
      (fun _ _ => True) := by
    rw [addBundle_eq]
    have hchanges : (addTagged bundle).Meets (start c bundle.project)
        (fun _ a => a.database.Untagged) (fun _ _ => True) := by
      apply (evolves_addTagged bundle _ trivial).mono
      · rintro _ a ⟨hab, -⟩
        exact hab.keep (I := fun a => a.database.Untagged) (fun _ _ => untagged_change)
          fun _ hs => by cases hs
      · exact fun _ _ _ => trivial
    apply ((meets_addTagged_routes apart).and hchanges).mono (fun _ _ h => h)
      (fun _ _ _ => trivial) |>.bind
    rintro _ a₁ ⟨⟨hroutes, -⟩, huntagged⟩
    apply (Attempt.meets_run bindTags a₁).mono (fun _ _ h => h) (fun _ _ _ => trivial) |>.bind
    intro _ a₂ hrun
    exact meets_addLinked_links (hroutes.binds ⟨huntagged, hrun⟩)
  unfold build at h
  split at h
  · rename_i a' hrun
    cases h
    exact hmeets.of_run_ok hrun
  · cases h

end Assembly

end Catalog
