import Catalog.Proofs.Outline.Stage

/-!
The steps that a bundle is built in, and what they come to: the outline of the bundle, with the
tags that its tables mention. Records reach a schema in several phases, so the proof moves the
mentions of schemas and the implied tags past them.
-/
namespace Catalog.Decl

def Schema.steps (s : Schema) : List Step :=
  .declare s :: (s.records.map (.place s.name) ++ [.close s.name])

def Item.steps (c : Config) (r : Item) : List Step :=
  [.arrive (r.target c), .place (r.target c) r]

namespace Bundle

/-- The records that are inserted before tags are linked to tables. -/
def taggedRecords (b : Bundle) : List Item :=
  b.tables.map .table ++ b.tags.map .tag

def laterRecords (b : Bundle) : List Item :=
  b.refs.map .ref ++ b.enums.map .enum ++ b.tableGroups.map .tableGroup

theorem routed_eq (b : Bundle) : b.routed = b.taggedRecords ++ b.laterRecords := by
  simp [routed, taggedRecords, laterRecords]

def steps (c : Config) (b : Bundle) : List Step :=
  b.schemas.flatMap (·.steps) ++ b.taggedRecords.flatMap (Item.steps c)
    ++ .implyTags :: b.laterRecords.flatMap (Item.steps c)

end Bundle

/-! What records of all sorts come to in one schema. -/

namespace Item

def table? : Item → Option Table
  | table d => some d
  | _ => none

def tag? : Item → Option Tag
  | tag d => some d
  | _ => none

def enum? : Item → Option Enum
  | enum d => some d
  | _ => none

def ref? : Item → Option Ref
  | ref d => some d
  | _ => none

def tableGroup? : Item → Option TableGroup
  | tableGroup d => some d
  | _ => none

end Item

namespace Schema

theorem foldl_add (s : Schema) (rs : List Item) :
    rs.foldl add s =
      { s with
        tables := s.tables ++ rs.filterMap Item.table?
        refs := s.refs ++ rs.filterMap Item.ref?
        enums := s.enums ++ rs.filterMap Item.enum?
        tags := s.tags ++ rs.filterMap Item.tag?
        tableGroups := s.tableGroups ++ rs.filterMap Item.tableGroup? } := by
  induction rs generalizing s with
  | nil => simp
  | cons r rs ih =>
    rw [List.foldl_cons, ih]
    cases r <;>
      simp [add, List.filterMap_cons, Item.table?, Item.tag?, Item.enum?, Item.ref?,
        Item.tableGroup?]

theorem foldl_add_records (s : Schema) : s.records.foldl add s.header = s := by
  rw [foldl_add]
  simp [records, header, List.filterMap_append, List.filterMap_map, Function.comp_def,
    Item.table?, Item.tag?, Item.enum?, Item.ref?, Item.tableGroup?]

/-- The nested records after the tables. -/
def others (s : Schema) : List Item :=
  s.tags.map .tag ++ s.enums.map .enum ++ s.refs.map .ref ++ s.tableGroups.map .tableGroup

theorem records_eq_append (s : Schema) : s.records = s.tables.map .table ++ s.others := by
  simp [records, others]

theorem table?_of_mem_others {s : Schema} {r : Item} (h : r ∈ s.others) : r.table? = none := by
  simp only [others, List.mem_append, List.mem_map] at h
  rcases h with ((⟨d, -, rfl⟩ | ⟨d, -, rfl⟩) | ⟨d, -, rfl⟩) | ⟨d, -, rfl⟩ <;> rfl

end Schema

theorem Bundle.gather_eq (b : Bundle) (c : Config) (s : Schema) :
    b.gather c s = (b.routed.filter fun r => s.isNamed (r.target c)).foldl Schema.add s := by
  rw [Schema.foldl_add]
  simp [gather, routed, List.filterMap_append, List.filter_append, List.filter_map,
    List.filterMap_map, Function.comp_def, Item.table?, Item.tag?, Item.enum?, Item.ref?,
    Item.tableGroup?, Item.target, Item.schemaName]

namespace Outline

/-- Places a record in the schema that it belongs to, which is added where it is missing. -/
def route (c : Config) (o : Outline) (r : Item) : Outline :=
  (o.arrive c (r.target c)).place (r.target c) r

variable {c : Config} {o : Outline} {name other : String} {r : Item}

theorem any_isNamed_place (o : Outline) (name : String) (r : Item) (other : String) :
    (o.place name r).any (·.isNamed other) = o.any (·.isNamed other) := by
  unfold place
  rw [List.any_map]
  congr 1
  funext s
  simp only [Function.comp_apply]
  split
  · exact (s.grows_add r).isNamed other
  · rfl

theorem any_isNamed_arrive (c : Config) (o : Outline) (name : String) :
    (o.arrive c name).any (·.isNamed name) = true := by
  unfold arrive
  split
  · assumption
  · rw [List.any_append, Bool.or_eq_true]
    right
    simpa using (c.isNamed_impliedSchema name name).mpr rfl

/-- Once a name is known, its record may be placed before or after a further schema arrives. -/
theorem arrive_place (h : o.any (·.isNamed name) = true) :
    (o.place name r).arrive c other = (o.arrive c other).place name r := by
  unfold arrive
  rw [any_isNamed_place]
  split
  · rfl
  · rename_i hother
    have hne : ¬ (c.impliedSchema other).isNamed name = true := by
      rw [Config.isNamed_impliedSchema]
      rintro rfl
      exact hother h
    rw [place_append]
    congr 1
    exact (place_eq_self (o := [c.impliedSchema other]) (by simpa using hne)).symm

theorem foldl_arrive_place (names : List String) (h : o.any (·.isNamed name) = true) :
    names.foldl (arrive c) (o.place name r) = (names.foldl (arrive c) o).place name r := by
  induction names generalizing o with
  | nil => rfl
  | cons other names ih =>
    rw [List.foldl_cons, List.foldl_cons, arrive_place h, ih]
    obtain ⟨s, hs, hsn⟩ := List.any_eq_true.mp h
    obtain ⟨s', hs', hg⟩ := (grows_arrive c o other).mem hs
    exact List.any_eq_true.mpr ⟨s', hs', (hg.isNamed name).trans hsn⟩

/-- Names that arrive one by one end up as the schemas of those that are new, each once. -/
theorem foldl_arrive (o : Outline) (names : List String) :
    names.foldl (arrive c) o = o ++
      (names.filter fun name => !o.any (·.isNamed name)).eraseDups.map c.impliedSchema := by
  induction names generalizing o with
  | nil => simp
  | cons name names ih =>
    rw [List.foldl_cons, ih]
    unfold arrive
    by_cases hname : o.any (·.isNamed name) = true
    · rw [if_pos hname, List.filter_cons_of_neg (by simp [hname])]
    · have hrest : (names.filter fun other =>
          !List.any (o ++ [c.impliedSchema name]) (·.isNamed other))
          = (names.filter fun other => !o.any (·.isNamed other)).filter fun other =>
            !other == name := by
        rw [List.filter_filter]
        apply List.filter_congr
        intro other _
        have himplied : (c.impliedSchema name).isNamed other = (other == name) := by
          rw [Bool.eq_iff_iff, Config.isNamed_impliedSchema, beq_iff_eq, eq_comm]
        rw [List.any_append, List.any_cons, List.any_nil, Bool.or_false, himplied, Bool.not_or,
          Bool.and_comm]
      rw [if_neg hname, List.filter_cons_of_pos (by simp [hname]), List.eraseDups_cons, hrest,
        List.map_cons, List.append_assoc]
      rfl

/-- Records that are routed one by one end up grouped by the schemas they are for. -/
theorem foldl_route (o : Outline) (rs : List Item) :
    rs.foldl (route c) o = ((rs.map (·.target c)).foldl (arrive c) o).map fun s =>
      (rs.filter fun r => s.isNamed (r.target c)).foldl Schema.add s := by
  induction rs generalizing o with
  | nil => simp
  | cons r rs ih =>
    rw [List.foldl_cons, ih, route, foldl_arrive_place _ (any_isNamed_arrive c o _), place,
      List.map_map, List.map_cons, List.foldl_cons]
    apply List.map_congr_left
    intro s _
    rw [Function.comp_apply, List.filter_cons]
    by_cases hs : s.isNamed (r.target c) = true
    · rw [if_pos hs, if_pos hs, List.foldl_cons]
      simp only [(s.grows_add r).isNamed]
    · rw [if_neg hs, if_neg hs]

theorem route_withImpliedTags
    (hr : ∀ s : Schema, (s.add r).withImpliedTags = s.withImpliedTags.add r) :
    Outline.route c (o.map (·.withImpliedTags)) r = (o.route c r).map (·.withImpliedTags) := by
  have harrive : Outline.arrive c (o.map (·.withImpliedTags)) (r.target c)
      = (o.arrive c (r.target c)).map (·.withImpliedTags) := by
    have hany : (o.map (·.withImpliedTags)).any (·.isNamed (r.target c))
        = o.any (·.isNamed (r.target c)) := by
      rw [List.any_map]
      rfl
    unfold arrive
    rw [hany]
    split
    · rfl
    · rw [List.map_append]
      rfl
  unfold route place
  rw [harrive, List.map_map, List.map_map]
  apply List.map_congr_left
  intro s _
  rw [Function.comp_apply, Function.comp_apply, apply_ite Schema.withImpliedTags, hr]
  rfl

theorem foldl_route_withImpliedTags (rs : List Item)
    (hrs : ∀ r ∈ rs, ∀ s : Schema, (s.add r).withImpliedTags = s.withImpliedTags.add r) :
    rs.foldl (route c) (o.map (·.withImpliedTags))
      = (rs.foldl (route c) o).map (·.withImpliedTags) := by
  induction rs generalizing o with
  | nil => rfl
  | cons r rs ih =>
    rw [List.foldl_cons, List.foldl_cons, route_withImpliedTags (hrs r List.mem_cons_self)]
    exact ih fun r' hr' => hrs r' (List.mem_cons_of_mem r hr')

end Outline

theorem Bundle.roster_eq_foldl (b : Bundle) (c : Config) :
    b.roster c = (b.routed.map (·.target c)).foldl (Outline.arrive c) b.schemas :=
  (Outline.foldl_arrive b.schemas _).symm

theorem Bundle.add_withImpliedTags {b : Bundle} {r : Item} (hr : r ∈ b.laterRecords)
    (s : Schema) : (s.add r).withImpliedTags = s.withImpliedTags.add r := by
  cases r with
  | table d => simp [laterRecords] at hr
  | tag d => simp [laterRecords] at hr
  | enum d => rfl
  | ref d => rfl
  | tableGroup d => rfl

theorem Schema.isPopulated_eq (s : Schema) :
    s.isPopulated = !(s.tables.isEmpty && s.tags.isEmpty && s.enums.isEmpty && s.refs.isEmpty
      && s.tableGroups.isEmpty) := by
  unfold isPopulated records
  cases s.tables <;> cases s.tags <;> cases s.enums <;> cases s.refs <;> simp

theorem Schema.isPopulated_add (s : Schema) (r : Item) : (s.add r).isPopulated = true := by
  rw [isPopulated_eq]
  cases r <;> simp [add]

theorem Schema.isPopulated_withImpliedTags (s : Schema) :
    s.withImpliedTags.isPopulated = s.isPopulated := by
  rw [isPopulated_eq, isPopulated_eq]
  unfold withImpliedTags
  cases ht : s.tables <;> simp [impliedTags]

namespace Stage

variable {c : Config} {x : Stage}

theorem run_places (x : Stage) (name : String) (rs : List Item) :
    x.run c (rs.map (.place name))
      = { x with outline := rs.foldl (fun o r => o.place name r) x.outline } := by
  induction rs generalizing x with
  | nil => rfl
  | cons r rs ih => exact ih (x.step c (.place name r))

theorem infos_run_places (x : Stage) (name : String) (rs : List Item) :
    (x.run c (rs.map (.place name))).outline.map (·.toSchemaInfo)
      = x.outline.map (·.toSchemaInfo) := by
  induction rs generalizing x with
  | nil => rfl
  | cons r rs ih => exact (ih (x.step c (.place name r))).trans (x.outline.infos_place name r)

/-- Declared schemas are added one after another, even where names do not tell them apart. -/
theorem infos_run_schemas (x : Stage) (ss : List Schema) :
    (x.run c (ss.flatMap (·.steps))).outline.map (·.toSchemaInfo)
      = x.outline.map (·.toSchemaInfo) ++ ss.map (·.toSchemaInfo) := by
  induction ss generalizing x with
  | nil => simp [run]
  | cons s ss ih =>
    have hschema : (x.run c s.steps).outline.map (·.toSchemaInfo)
        = x.outline.map (·.toSchemaInfo) ++ [s.toSchemaInfo] := by
      rw [Schema.steps, run, List.foldl_cons, ← run, run_append]
      exact ((x.step c (.declare s)).infos_run_places s.name s.records).trans List.map_append
    rw [List.flatMap_cons, run_append, ih, hschema, List.append_assoc]
    rfl

theorem foldl_place_append {o : Outline} {s : Schema} {name : String}
    (ho : ∀ t ∈ o, ¬ t.isNamed name = true) (hs : s.isNamed name = true) (rs : List Item) :
    rs.foldl (fun o r => o.place name r) (o ++ [s]) = o ++ [rs.foldl Schema.add s] := by
  induction rs generalizing s with
  | nil => rfl
  | cons r rs ih =>
    rw [List.foldl_cons, List.foldl_cons, Outline.place_append, Outline.place_eq_self ho,
      Outline.place_cons, if_pos hs]
    exact ih (((s.grows_add r).isNamed name).trans hs)

/-- Whether the default schema holds a record, as far as one schema goes. -/
def isDefault (c : Config) (s : Schema) : Bool :=
  s.name = c.defaultSchemaName && s.isPopulated

/-- A declared schema is added with all that is nested in it. -/
theorem run_schema {s : Schema} (h : ∀ t ∈ x.outline, ¬ t.isNamed s.name = true) :
    x.run c s.steps =
      { x with outline := x.outline ++ [s], marked := x.marked || isDefault c s } := by
  have hplaces : (x.step c (.declare s)).run c (s.records.map (.place s.name))
      = { x with outline := x.outline ++ [s] } := by
    rw [run_places]
    simp only [step]
    rw [foldl_place_append h (s := s.header) s.isNamed_name, s.foldl_add_records]
  have hothers : (x.outline.any fun t =>
      t.isNamed s.name && t.name = c.defaultSchemaName && t.isPopulated) = false := by
    rw [List.any_eq_false]
    intro t ht
    simp [h t ht]
  rw [Schema.steps, run, List.foldl_cons, ← run, run_append, hplaces]
  simp only [run, List.foldl_cons, List.foldl_nil, step, List.any_append, hothers, List.any_cons,
    List.any_nil, SchemaInfo.isNamed_name, Bool.true_and, Bool.false_or, Bool.or_false, isDefault]

theorem run_schemas {ss : List Schema} (h : (x.outline ++ ss).Pairwise Schema.Apart) :
    x.run c (ss.flatMap (·.steps)) =
      { x with outline := x.outline ++ ss, marked := x.marked || ss.any (isDefault c) } := by
  induction ss generalizing x with
  | nil => simp [run]
  | cons s ss ih =>
    have hs : ∀ t ∈ x.outline, ¬ t.isNamed s.name = true := by
      intro t ht htn
      have apart := (List.pairwise_append.mp h).2.2 t ht s List.mem_cons_self
      exact apart s.name ⟨htn, s.isNamed_name⟩
    rw [List.flatMap_cons, run_append, run_schema hs, ih (by simpa using h)]
    simp [Bool.or_assoc]

/-- The default schema counts as populated exactly if it holds a record. -/
def Balanced (c : Config) (x : Stage) : Prop :=
  x.marked = x.outline.any (isDefault c)

theorem isDefault_add (c : Config) (s : Schema) (r : Item) :
    isDefault c (s.add r) = decide (s.name = c.defaultSchemaName) := by
  unfold isDefault
  rw [s.isPopulated_add, Bool.and_true, (s.grows_add r).name]

theorem isDefault_withImpliedTags (c : Config) (s : Schema) :
    isDefault c s.withImpliedTags = isDefault c s := by
  unfold isDefault
  rw [s.isPopulated_withImpliedTags]
  rfl

theorem any_isDefault_arrive (c : Config) (o : Outline) (name : String) :
    (o.arrive c name).any (isDefault c) = o.any (isDefault c) := by
  unfold Outline.arrive
  split
  · rfl
  · simp [isDefault, Schema.isPopulated, Schema.records, Config.impliedSchema]

theorem Balanced.record (h : x.Balanced c) (r : Item) :
    (x.run c (r.steps c)).Balanced c := by
  have horo : ∀ (o : Outline) (p q : Schema → Bool),
      (o.any p || o.any q) = o.any fun s => p s || q s := by
    intro o p q
    induction o with
    | nil => rfl
    | cons s o ih =>
      simp only [List.any_cons, ← ih]
      cases p s <;> cases q s <;> simp
  unfold Balanced at h ⊢
  simp only [Item.steps, run, List.foldl_cons, List.foldl_nil, step, Outline.place, List.any_map]
  rw [h, ← any_isDefault_arrive c x.outline (r.target c), horo]
  congr 1
  funext s
  rw [Function.comp_apply]
  split
  · rename_i hs
    rw [isDefault_add]
    simp only [isDefault, hs]
    cases decide (s.name = c.defaultSchemaName) <;> simp
  · rename_i hs
    simp [hs]

theorem run_records_outline (x : Stage) (rs : List Item) :
    (x.run c (rs.flatMap (Item.steps c))).outline = rs.foldl (Outline.route c) x.outline := by
  induction rs generalizing x with
  | nil => rfl
  | cons r rs ih =>
    rw [List.flatMap_cons, run_append, ih]
    rfl

theorem run_records_tagged (x : Stage) (rs : List Item) :
    (x.run c (rs.flatMap (Item.steps c))).tagged = x.tagged := by
  induction rs generalizing x with
  | nil => rfl
  | cons r rs ih =>
    rw [List.flatMap_cons, run_append, ih]
    rfl

theorem Balanced.records (h : x.Balanced c) (rs : List Item) :
    (x.run c (rs.flatMap (Item.steps c))).Balanced c := by
  induction rs generalizing x with
  | nil => exact h
  | cons r rs ih =>
    rw [List.flatMap_cons, run_append]
    exact ih (h.record r)

theorem Balanced.implyTags (h : x.Balanced c) : (x.step c .implyTags).Balanced c := by
  unfold Balanced at h ⊢
  simp only [step, List.any_map]
  rw [h]
  congr 1
  funext s
  exact (isDefault_withImpliedTags c s).symm

end Stage

/-- A bundle is built up to its outline, and the default schema counts as populated exactly if it
holds a record. -/
theorem Bundle.run_steps {b : Bundle} (c : Config) (apart : b.schemas.Pairwise Schema.Apart) :
    ({} : Stage).run c (b.steps c) =
      { outline := (b.outline c).map (·.withImpliedTags)
        tagged := true
        marked := (b.outline c).any (Stage.isDefault c) } := by
  let x := ({} : Stage).run c (b.schemas.flatMap (·.steps))
  let y := (x.run c (b.taggedRecords.flatMap (Item.steps c))).step c .implyTags
  have hx : x = { outline := b.schemas, marked := b.schemas.any (Stage.isDefault c) } :=
    (Stage.run_schemas (x := {}) apart).trans (by simp)
  have hrun : ({} : Stage).run c (b.steps c)
      = y.run c (b.laterRecords.flatMap (Item.steps c)) := by
    rw [steps, Stage.run_append, Stage.run_append]
    rfl
  have houtline : (({} : Stage).run c (b.steps c)).outline
      = (b.outline c).map (·.withImpliedTags) := by
    have hy : y.outline = (b.taggedRecords.foldl (Outline.route c) b.schemas).map
        (·.withImpliedTags) := by
      simp only [y, Stage.step]
      rw [Stage.run_records_outline, hx]
    rw [hrun, Stage.run_records_outline, hy,
      Outline.foldl_route_withImpliedTags _ fun r hr => add_withImpliedTags hr,
      ← List.foldl_append, ← routed_eq, Outline.foldl_route, ← roster_eq_foldl, outline]
    congr 2
    funext s
    exact (gather_eq b c s).symm
  have hbalanced : (({} : Stage).run c (b.steps c)).Balanced c := by
    rw [hrun]
    apply Stage.Balanced.records
    apply Stage.Balanced.implyTags
    apply Stage.Balanced.records
    rw [hx]
    rfl
  have htagged : (({} : Stage).run c (b.steps c)).tagged = true := by
    rw [hrun, Stage.run_records_tagged]
    rfl
  have hmarked : (({} : Stage).run c (b.steps c)).marked
      = (b.outline c).any (Stage.isDefault c) := by
    rw [hbalanced, houtline, List.any_map]
    congr 1
    funext s
    exact Stage.isDefault_withImpliedTags c s
  rw [← houtline, ← htagged, ← hmarked]

end Catalog.Decl
