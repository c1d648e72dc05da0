import Catalog.Proofs.Outline.Grouping

/-!
What is in scope for a link. Lookups see names and nothing else, so two outlines with the same names
in the same places are alike to them. It follows which tables a record can refer to when its turn
comes: one nested in a schema those of the schemas up to its own, any other one all tables.
-/
namespace Catalog.Decl

/-! What lookups see. -/

def Table.outward (t : Table) : TableInfo × List String :=
  (t.toTableInfo, t.fields.map (·.name))

def Schema.outward (s : Schema) : SchemaInfo × List (TableInfo × List String) :=
  (s.toSchemaInfo, s.tables.map (·.outward))

/-- All refs and groups of a schema find what they name in an outline. -/
def Schema.LinksWithin (c : Config) (o : Outline) (s : Schema) : Prop :=
  (∀ r ∈ s.refs, o.Connects c r) ∧ ∀ g ∈ s.tableGroups, o.Gathers c g

namespace Outline

/-- Names refer to the same tables and fields. -/
structure Alike (c : Config) (o o' : Outline) : Prop where
  tablePath? : ∀ schemaName tableName,
    o.tablePath? c schemaName tableName = o'.tablePath? c schemaName tableName
  fieldPath? : ∀ e name, o.fieldPath? c e name = o'.fieldPath? c e name

variable {c : Config} {o o' o'' : Outline}

theorem Alike.refl (c : Config) (o : Outline) : Alike c o o :=
  ⟨fun _ _ => rfl, fun _ _ => rfl⟩

theorem Alike.symm (h : Alike c o o') : Alike c o' o :=
  ⟨fun _ _ => (h.tablePath? _ _).symm, fun _ _ => (h.fieldPath? _ _).symm⟩

theorem Alike.trans (h : Alike c o o') (h' : Alike c o' o'') : Alike c o o'' :=
  ⟨fun _ _ => (h.tablePath? _ _).trans (h'.tablePath? _ _),
    fun _ _ => (h.fieldPath? _ _).trans (h'.fieldPath? _ _)⟩

theorem Alike.cover_eq (h : Alike c o o') (e : EndpointInfo) : o.cover c e = o'.cover c e := by
  unfold cover
  apply List.map_congr_left
  intro name _
  exact h.fieldPath? e name

theorem Alike.members_eq (h : Alike c o o') (g : TableGroup) : o.members c g = o'.members c g := by
  unfold members
  simp only [h.tablePath?]

theorem Alike.resolves (h : Alike c o o') {e : EndpointInfo} (hr : o.Resolves c e) :
    o'.Resolves c e where
  table := h.tablePath? _ _ ▸ hr.table
  fields := fun name hname => h.fieldPath? e name ▸ hr.fields name hname
  nodup := h.cover_eq e ▸ hr.nodup

theorem Alike.connects (h : Alike c o o') {r : Ref} (hr : o.Connects c r) : o'.Connects c r := by
  obtain ⟨e₁, e₂, hends, h₁, h₂, hlen, hne⟩ := hr
  refine ⟨e₁, e₂, hends, h.resolves h₁, h.resolves h₂, hlen, ?_⟩
  rw [← h.cover_eq, ← h.cover_eq]
  exact hne

theorem Alike.gathers (h : Alike c o o') {g : TableGroup} (hg : o.Gathers c g) :
    o'.Gathers c g := by
  intro m hm
  rw [← h.tablePath?]
  exact hg m hm

theorem Alike.sameEnds (h : Alike c o o') {r r' : Ref} (hs : o.SameEnds c r r') :
    o'.SameEnds c r r' :=
  hs.of_cover_eq (fun _ _ => (h.cover_eq _).symm) fun _ _ => (h.cover_eq _).symm

theorem Alike.links_iff (h : Alike c o o') (r : Item) : r.Links c o ↔ r.Links c o' := by
  cases r with
  | ref d => exact ⟨h.connects, h.symm.connects⟩
  | tableGroup g => exact ⟨h.gathers, h.symm.gathers⟩
  | _ => exact Iff.rfl

theorem schema?_outward (o : Outline) (name : String) :
    (o.schema? name).map (·.outward) = (o.map (·.outward)).find? (·.1.isNamed name) := by
  rw [List.find?_map]
  rfl

/-- What a table name refers to, told by what lookups see. -/
theorem locate?_outward (o : Outline) (c : Config) (schemaName : Option String)
    (tableName : String) :
    (o.locate? c schemaName tableName).map (fun found => (found.1.name, found.2.outward)) =
      ((o.map (·.outward)).find? (·.1.isNamed (schemaName.getD c.defaultSchemaName))).bind
        fun s => (s.2.find? (·.1.isNamed tableName)).map fun t => (s.1.name, t) := by
  rw [← schema?_outward, locate?]
  cases o.schema? (schemaName.getD c.defaultSchemaName) with
  | none => rfl
  | some s =>
    simp only [Option.bind_some, Option.map_some, Schema.outward, List.find?_map, Option.map_map]
    rfl

theorem alike_of_find? (c : Config) (h : ∀ name, (o.map (·.outward)).find? (·.1.isNamed name)
    = (o'.map (·.outward)).find? (·.1.isNamed name)) : Alike c o o' := by
  have hlocate : ∀ schemaName tableName,
      (o.locate? c schemaName tableName).map (fun found => (found.1.name, found.2.outward)) =
        (o'.locate? c schemaName tableName).map fun found => (found.1.name, found.2.outward) := by
    intro schemaName tableName
    rw [locate?_outward, locate?_outward, h]
  constructor
  · intro schemaName tableName
    have hmap := congrArg (Option.map fun p => TablePath.mk p.1 p.2.1.name)
      (hlocate schemaName tableName)
    rw [Option.map_map, Option.map_map] at hmap
    exact hmap
  · intro e name
    have hmap := congrArg (Option.bind · fun p =>
      if name ∈ p.2.2 then some (FieldPath.mk ⟨p.1, p.2.1.name⟩ name) else none)
      (hlocate e.schemaName e.tableName)
    simp only [Option.bind_map] at hmap
    exact hmap

theorem alike_of_outward (c : Config) (h : o.map (·.outward) = o'.map (·.outward)) :
    Alike c o o' :=
  alike_of_find? c fun name => by rw [h]

theorem alike_map (c : Config) (o : Outline) {f : Schema → Schema}
    (hf : ∀ s ∈ o, (f s).outward = s.outward) : Alike c (o.map f) o := by
  apply alike_of_outward
  rw [List.map_map]
  exact List.map_congr_left hf

theorem alike_withImpliedTags (c : Config) (o : Outline) :
    Alike c (o.map (·.withImpliedTags)) o :=
  alike_map c o fun _ _ => rfl

theorem alike_place (c : Config) (o : Outline) (name : String) {r : Item}
    (hr : r.table? = none) : Alike c (o.place name r) o := by
  apply alike_map
  intro s _
  split
  · cases r with
    | table d => cases hr
    | _ => rfl
  · rfl

/-- A schema without tables makes no difference, since nothing is found in it. -/
theorem alike_arrive (c : Config) (o : Outline) (name : String) :
    Alike c (o.arrive c name) o := by
  have hlocate : ∀ schemaName tableName, (o.arrive c name).locate? c schemaName tableName
      = o.locate? c schemaName tableName := by
    intro schemaName tableName
    unfold arrive
    split
    · rfl
    · unfold locate? schema?
      rw [List.find?_append]
      cases o.find? (·.isNamed (schemaName.getD c.defaultSchemaName)) with
      | some s => rfl
      | none =>
        rw [Option.none_or, List.find?_singleton]
        split <;> rfl
  constructor
  · intro schemaName tableName
    rw [tablePath?, tablePath?, hlocate]
  · intro e name
    rw [fieldPath?, fieldPath?, hlocate]

theorem alike_foldl_route (c : Config) (o : Outline) {rs : List Item}
    (hrs : ∀ r ∈ rs, r.table? = none) : Alike c (rs.foldl (route c) o) o := by
  induction rs generalizing o with
  | nil => exact Alike.refl c o
  | cons r rs ih =>
    rw [List.foldl_cons]
    apply (ih (o.route c r) fun r' hr' => hrs r' (List.mem_cons_of_mem r hr')).trans
    exact (alike_place c _ _ (hrs r List.mem_cons_self)).trans (alike_arrive c o _)

end Outline

theorem Schema.LinksWithin.of_alike {c : Config} {o o' : Outline} {s : Schema}
    (h : s.LinksWithin c o) (ho : Outline.Alike c o o') : s.LinksWithin c o' :=
  ⟨fun r hr => ho.connects (h.1 r hr), fun g hg => ho.gathers (h.2 g hg)⟩

theorem Schema.forall_others_links_iff {c : Config} {o : Outline} {s : Schema} :
    (∀ r ∈ s.others, r.Links c o) ↔ s.LinksWithin c o := by
  constructor
  · intro hall
    exact ⟨fun d hd => hall (.ref d) (by simp [others, hd]),
      fun g hg => hall (.tableGroup g) (by simp [others, hg])⟩
  · intro hwithin r hr
    cases r with
    | ref d => exact hwithin.1 d (by simpa [others] using hr)
    | tableGroup g => exact hwithin.2 g (by simpa [others] using hr)
    | _ => trivial

namespace Stage

variable {c : Config} {x : Stage}

/-- Records other than tables do not change what is in scope for the next ones. -/
theorem linked_places {rs : List Item} (hrs : ∀ r ∈ rs, r.table? = none) (name : String) :
    x.Linked c (rs.map (.place name)) ↔ ∀ r ∈ rs, r.Links c x.outline := by
  induction rs generalizing x with
  | nil => simp [Linked]
  | cons r rs ih =>
    have halike := Outline.alike_place c x.outline name (hrs r List.mem_cons_self)
    rw [List.map_cons, Linked, ih fun r' hr' => hrs r' (List.mem_cons_of_mem r hr'),
      List.forall_mem_cons]
    apply and_congr Iff.rfl
    apply forall₂_congr
    intro r' _
    exact halike.links_iff r'

theorem linked_records {rs : List Item} (hrs : ∀ r ∈ rs, r.table? = none) :
    x.Linked c (rs.flatMap (Item.steps c)) ↔ ∀ r ∈ rs, r.Links c x.outline := by
  induction rs generalizing x with
  | nil => simp [Linked]
  | cons r rs ih =>
    have harrive := Outline.alike_arrive c x.outline (r.target c)
    have hplace := Outline.alike_place c (x.outline.arrive c (r.target c)) (r.target c)
      (hrs r List.mem_cons_self)
    rw [List.flatMap_cons, linked_append, ih fun r' hr' => hrs r' (List.mem_cons_of_mem r hr'),
      List.forall_mem_cons]
    apply and_congr
    · simp only [Item.steps, Linked, Step.Links, step, and_true, true_and]
      exact harrive.links_iff r
    · apply forall₂_congr
      intro r' _
      exact (hplace.trans harrive).links_iff r'

theorem linked_of_trivial {steps : List Step} (h : ∀ st ∈ steps, ∀ y : Stage, st.Links c y) :
    x.Linked c steps := by
  induction steps generalizing x with
  | nil => trivial
  | cons st steps ih =>
    exact ⟨h st List.mem_cons_self x, ih fun st' hst' => h st' (List.mem_cons_of_mem st hst')⟩

/-- All tables of a declared schema are there before its refs and groups. -/
theorem linked_schema {s : Schema} (h : ∀ t ∈ x.outline, ¬ t.isNamed s.name = true) :
    x.Linked c s.steps ↔ s.LinksWithin c (x.outline ++ [s]) := by
  let y := (x.step c (.declare s)).run c ((s.tables.map Item.table).map (.place s.name))
  have hy : Outline.Alike c y.outline (x.outline ++ [s]) := by
    apply Outline.alike_of_outward
    have houtline : y.outline
        = x.outline ++ [(s.tables.map Item.table).foldl Schema.add s.header] := by
      simp only [y]
      rw [run_places]
      exact foldl_place_append h (s := s.header) s.isNamed_name _
    rw [houtline, List.map_append, List.map_append, Schema.foldl_add]
    simp [Schema.outward, Schema.header, List.filterMap_map, Function.comp_def, Item.table?]
  have hsteps : s.steps = .declare s :: ((s.tables.map Item.table).map (.place s.name)
      ++ (s.others.map (.place s.name) ++ [.close s.name])) := by
    rw [Schema.steps, s.records_eq_append, List.map_append, List.append_assoc]
  have htables : (x.step c (.declare s)).Linked c
      ((s.tables.map Item.table).map (.place s.name)) := by
    apply linked_of_trivial
    intro st hst z
    obtain ⟨r, hr, rfl⟩ := List.mem_map.mp hst
    obtain ⟨d, -, rfl⟩ := List.mem_map.mp hr
    trivial
  have hlinks : (∀ r ∈ s.others, r.Links c y.outline) ↔ s.LinksWithin c (x.outline ++ [s]) := by
    rw [Schema.forall_others_links_iff]
    exact ⟨fun hall => hall.of_alike hy, fun hall => hall.of_alike hy.symm⟩
  rw [hsteps, Linked, linked_append, linked_append,
    linked_places fun r hr => Schema.table?_of_mem_others hr, ← hlinks]
  constructor
  · rintro ⟨-, -, hall, -⟩
    exact hall
  · intro hall
    exact ⟨trivial, htables, hall, trivial, trivial⟩

theorem linked_schemas {ss : List Schema} (h : (x.outline ++ ss).Pairwise Schema.Apart) :
    x.Linked c (ss.flatMap (·.steps)) ↔ ∀ pre s post, ss = pre ++ s :: post →
      s.LinksWithin c (x.outline ++ pre ++ [s]) := by
  induction ss generalizing x with
  | nil => simp [Linked]
  | cons s ss ih =>
    have hs : ∀ t ∈ x.outline, ¬ t.isNamed s.name = true := by
      intro t ht htn
      have apart := (List.pairwise_append.mp h).2.2 t ht s List.mem_cons_self
      exact apart s.name ⟨htn, s.isNamed_name⟩
    rw [List.flatMap_cons, linked_append, linked_schema hs, run_schema hs, ih (by simpa using h)]
    constructor
    · rintro ⟨hlinks, hrest⟩ pre t post hsplit
      cases pre with
      | nil =>
        cases hsplit
        simpa using hlinks
      | cons u pre =>
        cases hsplit
        simpa using hrest pre t post rfl
    · intro hall
      refine ⟨by simpa using hall [] s ss rfl, ?_⟩
      rintro pre t post rfl
      simpa using hall (s :: pre) t post rfl

end Stage

/-! Records outside of schema declarations. -/

namespace Bundle

theorem table?_of_mem_laterRecords {b : Bundle} {r : Item} (h : r ∈ b.laterRecords) :
    r.table? = none := by
  simp only [laterRecords, List.mem_append, List.mem_map] at h
  rcases h with (⟨d, -, rfl⟩ | ⟨d, -, rfl⟩) | ⟨d, -, rfl⟩ <;> rfl

theorem linked_taggedRecords (b : Bundle) (c : Config) (x : Stage) :
    x.Linked c (b.taggedRecords.flatMap (Item.steps c)) := by
  apply Stage.linked_of_trivial
  intro st hst z
  obtain ⟨r, hr, hst⟩ := List.mem_flatMap.mp hst
  simp only [taggedRecords, List.mem_append, List.mem_map] at hr
  rcases hr with ⟨d, -, rfl⟩ | ⟨d, -, rfl⟩ <;>
    rcases List.mem_pair.mp hst with rfl | rfl <;> trivial

theorem forall_laterRecords_links_iff {b : Bundle} {c : Config} {o : Outline} :
    (∀ r ∈ b.laterRecords, r.Links c o) ↔
      (∀ r ∈ b.refs, o.Connects c r) ∧ ∀ g ∈ b.tableGroups, o.Gathers c g := by
  constructor
  · intro hall
    exact ⟨fun d hd => hall (.ref d) (by simp [laterRecords, hd]),
      fun g hg => hall (.tableGroup g) (by simp [laterRecords, hg])⟩
  · rintro ⟨hrefs, hgroups⟩ r hr
    cases r with
    | ref d => exact hrefs d (by simpa [laterRecords] using hr)
    | tableGroup g => exact hgroups g (by simpa [laterRecords] using hr)
    | _ => trivial

end Bundle

/-- Each record finds what it names when its turn comes if it is in its scope. -/
theorem Bundle.linked_steps_iff {b : Bundle} (c : Config)
    (apart : b.schemas.Pairwise Schema.Apart) :
    ({} : Stage).Linked c (b.steps c) ↔
      (∀ pre s post, b.schemas = pre ++ s :: post → s.LinksWithin c (pre ++ [s])) ∧
        (∀ r ∈ b.refs, (b.outline c).Connects c r) ∧
          ∀ g ∈ b.tableGroups, (b.outline c).Gathers c g := by
  let x := ({} : Stage).run c (b.schemas.flatMap (·.steps))
  let y := (x.run c (b.taggedRecords.flatMap (Item.steps c))).step c .implyTags
  have hrun : ({} : Stage).run c (b.steps c)
      = y.run c (b.laterRecords.flatMap (Item.steps c)) := by
    rw [steps, Stage.run_append, Stage.run_append]
    rfl
  have hlater : ∀ r ∈ b.laterRecords, r.table? = none := fun _ hr => table?_of_mem_laterRecords hr
  have htagged : x.Linked c (b.taggedRecords.flatMap (Item.steps c)) := linked_taggedRecords b c x
  have hy : Outline.Alike c y.outline (b.outline c) := by
    have hend := congrArg Stage.outline (hrun.symm.trans (run_steps c apart))
    rw [Stage.run_records_outline] at hend
    have hroutes := Outline.alike_foldl_route c y.outline hlater
    rw [hend] at hroutes
    exact hroutes.symm.trans (Outline.alike_withImpliedTags c _)
  have hrecords : (∀ r ∈ b.laterRecords, r.Links c y.outline) ↔
      (∀ r ∈ b.refs, (b.outline c).Connects c r) ∧
        ∀ g ∈ b.tableGroups, (b.outline c).Gathers c g := by
    rw [← forall_laterRecords_links_iff]
    apply forall₂_congr
    intro r _
    exact hy.links_iff r
  rw [steps, Stage.linked_append, Stage.linked_append, Stage.linked_schemas (x := {}) apart,
    ← hrecords]
  constructor
  · rintro ⟨⟨hschemas, -⟩, -, hrest⟩
    refine ⟨by simpa using hschemas, (Stage.linked_records hlater).mp ?_⟩
    rwa [Stage.run_append] at hrest
  · rintro ⟨hschemas, hrest⟩
    refine ⟨⟨by simpa using hschemas, htagged⟩, trivial, ?_⟩
    rw [Stage.run_append]
    exact (Stage.linked_records hlater).mpr hrest

end Catalog.Decl
