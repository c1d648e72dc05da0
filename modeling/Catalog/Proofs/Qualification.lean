import Catalog.Proofs.Qualification.Placements
import Catalog.Proofs.Qualification.Shown

/-!
The names that messages about duplicates show. A build that is rejected because a name is taken
blames the first record that has a rival. The name stands alone if the record is nested in the
declaration of the default schema, and otherwise after the name of the schema, whatever the bundle
calls that elsewhere.
-/
namespace Catalog

namespace Decl

variable {b : Bundle} {c : Config} {x y : Stage} {s : Schema} {rec : Item} {sort : ChildSort}
  {own name : String} {pre post : List Step}

/-- The schema that a message shows for a record. -/
def Placement.shown (c : Config) (p : Placement) : Option String :=
  if p.nested ∧ p.schema = c.defaultSchemaName then none else some p.schema

/-- A rejection blames the first record that has a rival, and shows its name as its place asks
for. -/
def Bundle.Blames (b : Bundle) (c : Config) (r : Rejection) : Prop :=
  ∃ p sort own, b.FirstRival c p ∧ p.record.label? = some (sort, own) ∧
    r = { cause := .duplicateChild sort (p.shown c) own, span := p.record.token }

theorem Stage.shown_of_unmarked {t : Schema} (hname : t.name = s.name)
    (hmarked : s.name = c.defaultSchemaName → x.marked = false) :
    x.shown c t = (s.placement rec).shown c := by
  unfold shown Placement.shown Schema.placement
  rw [hname]
  by_cases hdefault : s.name = c.defaultSchemaName
  · simp [hdefault, hmarked hdefault]
  · simp [hdefault]

theorem Stage.shown_of_marked (hname : s.name = b.home c rec)
    (hmarked : s.name = c.defaultSchemaName → x.marked = true) :
    x.shown c s = (b.placement c rec).shown c := by
  unfold shown Placement.shown Bundle.placement
  rw [← hname]
  by_cases hdefault : s.name = c.defaultSchemaName
  · simp [hdefault, hmarked hdefault]
  · simp [hdefault]

/-! Nested records. The default schema is marked no earlier than when its declaration closes. -/

theorem Schema.name_of_split (h : s.steps = pre ++ .place name rec :: post) : name = s.name := by
  have hmem : Step.place name rec ∈ s.steps := h ▸ List.mem_append_right _ List.mem_cons_self
  simp only [Schema.steps, List.mem_cons, reduceCtorEq, List.mem_append, List.mem_map,
    List.not_mem_nil, or_false, false_or, Step.place.injEq] at hmem
  obtain ⟨_, -, hname, -⟩ := hmem
  exact hname.symm

theorem Stage.run_opened {ss : List Schema} {rs : List Item}
    (apart : (ss ++ [s]).Pairwise Schema.Apart) :
    ({} : Stage).run c (ss.flatMap (·.steps) ++ .declare s :: rs.map (.place s.name))
      = { outline := ss ++ [rs.foldl Schema.add s.header], marked := ss.any (isDefault c) } := by
  obtain ⟨hss, -, hs⟩ := List.pairwise_append.mp apart
  have hnew : ∀ t ∈ ss, ¬ t.isNamed s.name = true :=
    fun t ht htn => hs t ht s List.mem_cons_self s.name ⟨htn, s.isNamed_name⟩
  rw [run_append, run_schemas (x := {}) hss, run, List.foldl_cons, ← run, run_places]
  simp only [step, List.nil_append, Bool.false_or]
  rw [foldl_place_append hnew (s := s.header) s.isNamed_name]

theorem Bundle.blames_of_nested {ss ss' : List Schema}
    (hschemas : b.schemas = ss ++ s :: ss') (hs : s.steps = pre ++ .place name rec :: post)
    (hx : x = ({} : Stage).run c (ss.flatMap (·.steps) ++ pre)) (hsound : x.outline.Sound c)
    {t : Schema} (ht : x.outline.schema? name = some t) (hlabel : rec.label? = some (sort, own))
    (hown : own ∈ t.names sort) :
    b.Blames c { cause := .duplicateChild sort (x.shown c t) own, span := rec.token } := by
  subst hx
  have apart := apart_of_nested hs hsound
  obtain rfl := Schema.name_of_split hs
  obtain ⟨rs, rs', hrecords, rfl⟩ := Schema.split_steps hs
  obtain ⟨-, -, hs'⟩ := List.pairwise_append.mp apart
  rw [Stage.run_opened apart] at hsound ht ⊢
  have hinfo : (rs.foldl Schema.add s.header).toSchemaInfo = s.toSchemaInfo :=
    (s.header.grows_foldl_add rs).info
  have hlast : rs.foldl Schema.add s.header ∈ ss ++ [rs.foldl Schema.add s.header] := by simp
  obtain rfl : rs.foldl Schema.add s.header = t :=
    hsound.eq_of_isNamed hlast (List.mem_of_find?_eq_some ht) (hinfo ▸ s.isNamed_name)
      (List.find?_some (p := fun t : Schema => t.isNamed s.name) ht)
  have hfirst : b.FirstRival c (s.placement rec) := by
    apply firstRival_of_nested hschemas hrecords apart _ _ hlabel hown
    · exact fun t ht => hsound.distinct t (List.mem_append_left _ ht)
    · exact hsound.distinct _ hlast
  have hunmarked : s.name = c.defaultSchemaName → ss.any (Stage.isDefault c) = false := by
    intro hdefault
    rw [List.any_eq_false]
    intro t ht hmarked
    rw [Stage.isDefault, Bool.and_eq_true, decide_eq_true_eq] at hmarked
    exact (hs' t ht s List.mem_cons_self).name_ne (hmarked.1.trans hdefault.symm)
  refine ⟨_, sort, own, hfirst, hlabel, ?_⟩
  rw [Stage.shown_of_unmarked (congrArg (·.name) hinfo) hunmarked]
  rfl

/-! Other records. A record arrives at its schema before it is placed, and the default one counts
as populated from then on. -/

theorem Item.split_steps {r : Item} (h : r.steps c = pre ++ .place name rec :: post) :
    r = rec ∧ name = r.target c ∧ pre = [.arrive (r.target c)] := by
  cases pre with
  | nil => simp [Item.steps] at h
  | cons st pre =>
    cases pre with
    | nil =>
      simp only [Item.steps, List.cons_append, List.nil_append, List.cons.injEq,
        Step.place.injEq] at h
      obtain ⟨rfl, ⟨rfl, rfl⟩, -⟩ := h
      exact ⟨rfl, rfl, rfl⟩
    | cons st' pre => simp [Item.steps] at h

theorem Schema.names_withImpliedTags (hsort : sort ≠ .tag) (s : Schema) :
    s.withImpliedTags.names sort = s.names sort := by
  cases sort with
  | tag => exact absurd rfl hsort
  | _ => rfl

/-- The schemas as they stand once some records have been routed, with or without implied tags. A
tag is placed only before those are there. -/
def Stage.Routed (b : Bundle) (c : Config) (x : Stage) (rs : List Item) (sort : ChildSort) : Prop :=
  x.outline = rs.foldl (Outline.route c) b.schemas ∨
    sort ≠ .tag ∧ x.outline = (rs.foldl (Outline.route c) b.schemas).map (·.withImpliedTags)

namespace Stage.Routed

variable {rs : List Item}

theorem distinct (h : y.Routed b c rs sort) (hy : ∀ s ∈ y.outline, s.Distinct) :
    ∀ s ∈ rs.foldl (Outline.route c) b.schemas, s.Distinct := by
  intro s hs
  rcases h with heq | ⟨-, heq⟩
  · exact hy s (heq ▸ hs)
  · exact (hy _ (heq ▸ List.mem_map_of_mem hs)).of_grows s.grows_withImpliedTags

theorem exists_schema (h : y.Routed b c rs sort) (hs : s ∈ y.outline)
    (hown : own ∈ s.names sort) : ∃ u ∈ rs.foldl (Outline.route c) b.schemas,
      u.toSchemaInfo = s.toSchemaInfo ∧ own ∈ u.names sort := by
  rcases h with heq | ⟨hsort, heq⟩
  · exact ⟨s, heq ▸ hs, rfl, hown⟩
  · rw [heq] at hs
    obtain ⟨u, hu, rfl⟩ := List.mem_map.mp hs
    exact ⟨u, hu, rfl, Schema.names_withImpliedTags hsort u ▸ hown⟩

end Stage.Routed

/-- A record outside of schema declarations has just arrived at its schema, and those before it have
been routed. -/
def Stage.Arrived (b : Bundle) (c : Config) (x : Stage) (rec : Item) (sort : ChildSort) : Prop :=
  ∃ (y : Stage) (rs rs' : List Item), b.routed = rs ++ rec :: rs' ∧ y.Routed b c rs sort ∧
    x = y.step c (.arrive (rec.target c))

/-- A schema in which a name is taken has been there before, and arriving at it only marks it. -/
theorem Stage.step_arrive_of_names (apart : y.outline.Pairwise Schema.Apart)
    (hs : (y.step c (.arrive name)).outline.schema? name = some s) (hown : own ∈ s.names sort) :
    y.outline.schema? name = some s ∧ y.step c (.arrive name)
      = { y with marked := y.marked || decide (s.name = c.defaultSchemaName) } := by
  cases hknown : y.outline.schema? name with
  | some d =>
    have hstep := step_arrive_known (c := c) apart hknown
    rw [hstep, hknown] at hs
    cases hs
    exact ⟨rfl, hstep⟩
  | none =>
    have hnew : (c.impliedSchema name).header.isNamed name = true :=
      (c.isNamed_impliedSchema name name).mpr rfl
    rw [step_arrive_new hknown, Outline.schema?, List.find?_append, ← Outline.schema?, hknown,
      Option.none_or, List.find?_singleton, if_pos hnew] at hs
    cases hs
    cases sort <;> cases hown

theorem Bundle.blames_of_arrived (apart : b.schemas.Pairwise Schema.Apart)
    (hx : x.Arrived b c rec sort) (hsound : x.outline.Sound c)
    (hs : x.outline.schema? (rec.target c) = some s) (hlabel : rec.label? = some (sort, own))
    (hown : own ∈ s.names sort) :
    b.Blames c { cause := .duplicateChild sort (x.shown c s) own, span := rec.token } := by
  obtain ⟨y, rs, rs', hrouted, hy, rfl⟩ := hx
  have hyapart := Outline.apart_of_grows hsound.apart (Stage.grows_step c y _)
  obtain ⟨hknown, hstep⟩ := Stage.step_arrive_of_names hyapart hs hown
  have hydistinct : ∀ t ∈ y.outline, t.Distinct := by
    rw [hstep] at hsound
    exact hsound.distinct
  have hsn : s.isNamed (rec.target c) = true :=
    List.find?_some (p := fun t : Schema => t.isNamed (rec.target c)) hknown
  obtain ⟨u, hu, hinfo, hownu⟩ := hy.exists_schema (List.mem_of_find?_eq_some hknown) hown
  obtain ⟨hhome, hfirst⟩ := firstRival_of_routed hrouted apart (hy.distinct hydistinct) hu
    (hinfo ▸ hsn) hlabel hownu
  have hname : s.name = b.home c rec := by
    rw [← hinfo, hhome]
  refine ⟨_, sort, own, hfirst, hlabel, ?_⟩
  rw [hstep, Stage.shown_of_marked hname fun hdefault => by simp [hdefault]]
  rfl

theorem Bundle.sort_ne_tag_of_later (h : rec ∈ b.laterRecords)
    (hlabel : rec.label? = some (sort, own)) : sort ≠ .tag := by
  rintro rfl
  cases rec with
  | tag d => simp [laterRecords] at h
  | _ => cases hlabel

theorem Stage.outline_run_schemas (apart : b.schemas.Pairwise Schema.Apart) :
    (({} : Stage).run c (b.schemas.flatMap (·.steps))).outline = b.schemas :=
  congrArg Stage.outline (run_schemas (x := {}) apart)

theorem Stage.arrived_of_tagged (apart : b.schemas.Pairwise Schema.Apart)
    (h : b.taggedRecords.flatMap (Item.steps c) = pre ++ .place name rec :: post) :
    name = rec.target c ∧
      (({} : Stage).run c (b.schemas.flatMap (·.steps) ++ pre)).Arrived b c rec sort := by
  obtain ⟨rs, rec', rs', _, _, hrecords, hrec, rfl⟩ := split_of_flatMap h
  obtain ⟨rfl, hname, rfl⟩ := Item.split_steps hrec
  refine ⟨hname, ({} : Stage).run c (b.schemas.flatMap (·.steps) ++ rs.flatMap (Item.steps c)), rs,
    rs' ++ b.laterRecords, ?_, .inl ?_, ?_⟩
  · simp [Bundle.routed_eq, hrecords]
  · rw [run_append, run_records_outline, outline_run_schemas apart]
  · rw [← List.append_assoc, run_append]
    rfl

theorem Stage.arrived_of_later (apart : b.schemas.Pairwise Schema.Apart)
    (h : b.laterRecords.flatMap (Item.steps c) = pre ++ .place name rec :: post)
    (hlabel : rec.label? = some (sort, own)) :
    name = rec.target c ∧ (({} : Stage).run c (b.schemas.flatMap (·.steps)
      ++ (b.taggedRecords.flatMap (Item.steps c) ++ .implyTags :: pre))).Arrived b c rec sort := by
  obtain ⟨rs, rec', rs', _, _, hrecords, hrec, rfl⟩ := split_of_flatMap h
  obtain ⟨rfl, hname, rfl⟩ := Item.split_steps hrec
  have hlast : rec' ∈ b.laterRecords := by simp [hrecords]
  have hadd : ∀ r ∈ rs, ∀ t : Schema, (t.add r).withImpliedTags = t.withImpliedTags.add r :=
    fun r hr => Bundle.add_withImpliedTags (hrecords ▸ List.mem_append_left _ hr)
  refine ⟨hname, ({} : Stage).run c (b.schemas.flatMap (·.steps)
      ++ (b.taggedRecords.flatMap (Item.steps c) ++ .implyTags :: rs.flatMap (Item.steps c))),
    b.taggedRecords ++ rs, rs', ?_, .inr ⟨Bundle.sort_ne_tag_of_later hlast hlabel, ?_⟩, ?_⟩
  · simp [Bundle.routed_eq, hrecords]
  · rw [run_append, run_append, run, List.foldl_cons, ← run, run_records_outline]
    simp only [step]
    rw [run_records_outline, outline_run_schemas apart,
      Outline.foldl_route_withImpliedTags rs hadd, ← List.foldl_append]
  · rw [← List.cons_append, ← List.append_assoc, ← List.append_assoc, run_append, List.append_assoc]
    rfl

/-- Records outside of schema declarations are placed before or after tags are implied. -/
theorem Bundle.split_routed_steps {st : Step} (hst : st ≠ .implyTags)
    (h : b.taggedRecords.flatMap (Item.steps c)
      ++ .implyTags :: b.laterRecords.flatMap (Item.steps c) = pre ++ st :: post) :
    (∃ post', b.taggedRecords.flatMap (Item.steps c) = pre ++ st :: post') ∨
      ∃ pre', pre = b.taggedRecords.flatMap (Item.steps c) ++ .implyTags :: pre' ∧
        b.laterRecords.flatMap (Item.steps c) = pre' ++ st :: post := by
  apply (split_of_append h).imp_right
  rintro ⟨_ | ⟨st', more⟩, rfl, hmore⟩
  · injection hmore with heq
    exact absurd heq.symm hst
  · injection hmore with heq hlater
    exact ⟨more, by rw [heq], hlater⟩

theorem Bundle.blames_of_clashes {r : Rejection} (h : ({} : Stage).Clashes c (b.steps c) r) :
    b.Blames c r := by
  obtain ⟨pre, _, post, hsteps, @⟨name, own, s, rec, sort, hsound, hs, hlabel, hown⟩⟩ := h
  rcases split_steps hsteps with ⟨ss, s', ss', pre', _, hschemas, hs', rfl⟩ | ⟨pre', rfl, hrest⟩
  · exact blames_of_nested hschemas hs' rfl hsound hs hlabel hown
  · have apart := apart_of_run hsound
    rcases split_routed_steps (by simp) hrest with ⟨_, htagged⟩ | ⟨more, rfl, hlater⟩
    · obtain ⟨rfl, harrived⟩ := Stage.arrived_of_tagged apart htagged
      exact blames_of_arrived apart harrived hsound hs hlabel hown
    · obtain ⟨rfl, harrived⟩ := Stage.arrived_of_later apart hlater hlabel
      exact blames_of_arrived apart harrived hsound hs hlabel hown

/-- A message names a record alone if it is nested in the declaration of the default schema, and
otherwise after the name of its schema. -/
structure Placement.NamedBy (c : Config) (p : Placement) (sort : ChildSort) (name : String)
    (r : Rejection) : Prop where
  label : p.record.label? = some (sort, name)
  kind : r.kind = sort.violation
  token : r.span = p.record.token
  qualified : r.message =
      sort.noun ++ " " ++ ("\"" ++ p.schema ++ "\".\"" ++ name ++ "\"") ++ " already exists" ↔
    p.nested = false ∨ p.schema ≠ c.defaultSchemaName
  bare : r.message = sort.noun ++ " " ++ ("\"" ++ name ++ "\"") ++ " already exists" ↔
    p.nested = true ∧ p.schema = c.defaultSchemaName

theorem message_duplicateChild_ne (sort : ChildSort) (schema name : String) :
    (Cause.duplicateChild sort (some schema) name).message
      ≠ (Cause.duplicateChild sort none name).message := by
  intro heq
  have hlength := congrArg String.length heq
  have hquotes : "\".\"".length = 3 := rfl
  unfold Cause.message qualifiedName at hlength
  simp only [String.length_append] at hlength
  omega

theorem Placement.namedBy_shown {p : Placement} (hlabel : p.record.label? = some (sort, own)) :
    p.NamedBy c sort own
      { cause := .duplicateChild sort (p.shown c) own, span := p.record.token } := by
  have hne := message_duplicateChild_ne sort p.schema own
  by_cases hbare : p.nested = true ∧ p.schema = c.defaultSchemaName
  · have hshown : p.shown c = none := if_pos hbare
    rw [hshown]
    refine ⟨hlabel, rfl, rfl, ⟨fun heq => absurd heq.symm hne, ?_⟩, ⟨fun _ => hbare, fun _ => rfl⟩⟩
    rintro (hnested | hschema)
    · rw [hbare.1] at hnested
      cases hnested
    · exact absurd hbare.2 hschema
  · have hshown : p.shown c = some p.schema := if_neg hbare
    rw [hshown]
    refine ⟨hlabel, rfl, rfl, ⟨fun _ => ?_, fun _ => rfl⟩,
      ⟨fun heq => absurd heq hne, fun h => absurd h hbare⟩⟩
    rw [Decidable.not_and_iff_or_not, Bool.not_eq_true] at hbare
    exact hbare

end Decl

/-- A build that is rejected because a name is taken blames the first record that has a rival. The
message names the record alone exactly if it is nested in the declared schema that has the name of
the default one, and otherwise after the name of its schema. -/
theorem Database.qualifies_of_build {b : Decl.Bundle} {c : Config} {r : Rejection}
    (h : build b c = .error r)
    (hkind : r.kind ∈ [.duplicateTableName, .duplicateEnumName, .duplicateTagName,
      .duplicateTableGroupName]) :
    ∃ p sort name, b.FirstRival c p ∧ p.NamedBy c sort name r := by
  have hclashes := Assembly.clashes_of_build (build_eq_error_iff.mp h)
    (Rejection.ofTaken_iff.mpr hkind)
  obtain ⟨p, sort, name, hfirst, hlabel, rfl⟩ := Decl.Bundle.blames_of_clashes hclashes
  exact ⟨p, sort, name, hfirst, Decl.Placement.namedBy_shown hlabel⟩

/-- Two tables of one name in the declaration of the default schema. -/
def Decl.Bundle.twins : Decl.Bundle where
  schemas := [{ name := "public", aliasName := some "p",
                tables := [{ name := "users", token := ⟨20, 25⟩ },
                           { name := "users", token := ⟨30, 35⟩ }] }]

/-- A table outside of the declaration of the default schema, which it names by its alias. -/
def Decl.Bundle.latecomer : Decl.Bundle where
  schemas := [{ name := "public", aliasName := some "p",
                tables := [{ name := "users", token := ⟨20, 25⟩ }] }]
  tables := [{ name := "users", schemaName := some "p", token := ⟨40, 45⟩ }]

theorem Database.qualifies_of_build_twins :
    (∃ r, build .twins {} = .error r ∧ r.message = "table \"users\" already exists" ∧
        ∃ p sort name, Decl.Bundle.twins.FirstRival {} p ∧ p.NamedBy {} sort name r) ∧
      ∃ r, build .latecomer {} = .error r ∧
        r.message = "table \"public\".\"users\" already exists" ∧
        ∃ p sort name, Decl.Bundle.latecomer.FirstRival {} p ∧ p.NamedBy {} sort name r := by
  have rejected : ∀ (b : Decl.Bundle) (message : String),
      (∃ r, build b {} = .error r ∧
        decide (r.message = message ∧ r.kind = .duplicateTableName) = true) →
      ∃ r, build b {} = .error r ∧ r.message = message ∧
        ∃ p sort name, b.FirstRival {} p ∧ p.NamedBy {} sort name r := by
    rintro b message ⟨r, hr, htest⟩
    obtain ⟨hmessage, hkind⟩ := of_decide_eq_true htest
    exact ⟨r, hr, hmessage, qualifies_of_build hr (by simp [hkind])⟩
  exact ⟨rejected _ _ (exists_rejection_of_test _ (by decide +kernel)),
    rejected _ _ (exists_rejection_of_test _ (by decide +kernel))⟩

end Catalog
