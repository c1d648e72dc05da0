import Catalog.Proofs.Mirror.Bind
import Catalog.Proofs.Outline.Grouping

/-!
Schemas are added by declaration or on first mention, and records go to the schemas that they name.
-/
namespace Catalog

variable {c : Config} {project : DatabaseInfo} {x : Decl.Stage} {a : Assembly} {name : String}
  {id : Id .schema} {tagged : Bool}

theorem SchemaInfo.collides_iff_shared (s t : SchemaInfo) :
    s.collides t = true ↔ ∃ name, s.isNamed name = true ∧ t.isNamed name = true := by
  rw [collides_iff]
  constructor
  · rintro (h | ⟨n, hn, h⟩)
    · exact ⟨t.name, h, t.isNamed_name⟩
    · exact ⟨n, h, (t.isNamed_iff n).mpr (.inr hn)⟩
  · rintro ⟨n, hs, ht⟩
    rcases (t.isNamed_iff n).mp ht with rfl | ht
    · exact .inl hs
    · exact .inr ⟨n, ht, hs⟩

/-! Adding and marking schemas. -/

theorem Database.keeps_addSchema (db : Database) (s : Schema) : db.Keeps (db.addSchema s) := by
  constructor
  · unfold tablePaths addSchema
    rw [List.flatMap_append]
    exact List.subset_append_left _ _
  · unfold fieldPaths addSchema
    rw [List.flatMap_append]
    exact List.subset_append_left _ _

theorem Database.Denotes.addSchema {db : Database} {s : Schema} (h : s.isNamed name = true) :
    (db.addSchema s).Denotes name s.id :=
  ⟨s, List.mem_append_right _ List.mem_cons_self, rfl, h⟩

theorem Database.mem_addSchema {db : Database} {s t : Schema} :
    t ∈ (db.addSchema s).schemas ↔ t ∈ db.schemas ∨ t = s := by
  simp [addSchema]

/-- A schema without records, under an identifier. -/
def Schema.opened (d : Decl.Schema) (id : Id .schema) : Schema :=
  { toSchemaInfo := d.toSchemaInfo, id, token := d.token }

theorem Database.Grouped.addSchema {db : Database} (h : db.Grouped) (d : Decl.Schema)
    (id : Id .schema) : (db.addSchema (.opened d id)).Grouped := by
  intro s hs t ht
  rcases mem_addSchema.mp hs with hs | rfl
  · rw [h s hs t ht]
    constructor
    · rintro ⟨s', hs', hg⟩
      exact ⟨s', mem_addSchema.mpr (.inl hs'), hg⟩
    · rintro ⟨s', hs', g, hg, hmem⟩
      rcases mem_addSchema.mp hs' with hs' | rfl
      · exact ⟨s', hs', g, hg, hmem⟩
      · cases hg
  · cases ht

theorem Assembly.Follows.addSchema (h : a.Follows c project x) {d : Decl.Schema}
    {ids : Allocator} (apart : ∀ t ∈ x.outline, t.Apart d) (hdrew : a.ids.Drew ids d.header.extent)
    (hnumbers : ∀ k, id.number k = List.range' (a.ids.next k) (d.header.extent k)) :
    Assembly.Follows c project { x with outline := x.outline ++ [d.header] }
      ⟨a.database.addSchema (.opened d id), ids⟩ := by
  obtain ⟨h, hgrouped⟩ := h
  have hextent := x.outline.extent_concat d.header
  have hkeeps := a.database.keeps_addSchema (.opened d id)
  have hgrows := Decl.Outline.grows_append x.outline [d.header]
  constructor
  · constructor
    · exact h.config
    · exact h.project
    · exact hdrew.base.trans h.base
    · exact h.issued_of_drew hdrew hextent
    · intro k
      have hopened : (Schema.opened d id).numbers k = id.number k := by
        simp [Schema.numbers, Schema.opened]
      apply h.numbers_of_drew hextent
      rw [← hnumbers k]
      simp [Database.numbers, Database.addSchema, hopened]
    · apply paired_append (h.schemas.imp fun _ _ hm => hm.mono hkeeps hgrows)
      exact .cons ⟨rfl, rfl, .nil, .nil, .nil, .nil, .nil⟩ .nil
    · intro htagged s hs t ht
      rcases Database.mem_addSchema.mp hs with hs | rfl
      · exact h.untagged htagged s hs t ht
      · cases ht
    · intro htagged s hs t ht
      rcases Database.mem_addSchema.mp hs with hs | rfl
      · exact h.tagged htagged s hs t ht
      · cases ht
    · exact h.marked
    · exact h.sound.declare apart (h.hasRoom_of_drew hdrew hextent)
  · exact hgrouped.addSchema d id

theorem Assembly.Follows.mark (h : a.Follows c project x) :
    Assembly.Follows c project { x with marked := true } ⟨a.database.markDefault, a.ids⟩ where
  mirrors := {
    config := h.mirrors.config
    project := h.mirrors.project
    base := h.mirrors.base
    issued := h.mirrors.issued
    numbers := h.mirrors.numbers
    schemas := h.mirrors.schemas.imp fun _ _ hm =>
      hm.mono ⟨List.Subset.refl _, List.Subset.refl _⟩ (Decl.Outline.Grows.refl _)
    untagged := h.mirrors.untagged
    tagged := h.mirrors.tagged
    marked := rfl
    sound := h.mirrors.sound }
  grouped := h.grouped

/-- Among schemas that are apart, a condition on the one with some name is one on that schema. -/
theorem Decl.Outline.any_isNamed {o : Decl.Outline} {d : Decl.Schema}
    (apart : o.Pairwise Decl.Schema.Apart) (hd : o.schema? name = some d)
    (q : Decl.Schema → Bool) : (o.any fun s => s.isNamed name && q s) = q d := by
  obtain ⟨hn, pre, post, rfl⟩ := split_of_schema? hd
  obtain ⟨-, hpost, hpre⟩ := List.pairwise_append.mp apart
  have none : ∀ l : Decl.Outline, (∀ t ∈ l, ¬ t.isNamed name = true) →
      (l.any fun s => s.isNamed name && q s) = false := by
    intro l hl
    rw [List.any_eq_false]
    intro t ht
    simp [hl t ht]
  rw [List.any_append, List.any_cons, none pre, none post, hn]
  · simp
  · intro t ht htn
    exact (List.pairwise_cons.mp hpost).1 t ht name ⟨hn, htn⟩
  · intro t ht htn
    exact hpre t ht d List.mem_cons_self name ⟨htn, hn⟩

theorem meets_pushSchema (h : a.Follows c project x) (d : Decl.Schema) :
    (Assembly.pushSchema d.toSchemaInfo d.token).Meets a
      (fun s b => b.Follows c project { x with outline := x.outline ++ [d.header] } ∧
        b.database.Denotes d.name s.id)
      (fun r _ => (∃ t ∈ x.outline, ∃ name, t.isNamed name = true ∧ d.isNamed name = true ∧
          r.kind = .duplicateSchemaName ∧ r.span = d.token) ∨
        ¬ Decl.Outline.HasRoom (x.outline ++ [d.header]) c ∧ r.kind = .idSpaceExhausted) := by
  have hextent : d.header.extent = fun k => (if k = Kind.schema then 1 else 0) + 0 :=
    funext d.extent_header
  have hdraws : Draws
      (do
        let id ← issue .schema
        if a.database.schemas.any fun s => s.collides d.toSchemaInfo then
          .reject { cause := .duplicateSchema d.name, span := d.token }
        else pure (Schema.opened d id))
      d.header.extent
      (fun s ns => (s = Schema.opened d s.id ∧ ∀ k, s.id.number k = ns k) ∧
        ∀ t ∈ x.outline, t.Apart d)
      (fun r => ∃ t ∈ x.outline, ∃ name, t.isNamed name = true ∧ d.isNamed name = true ∧
        r.kind = .duplicateSchemaName ∧ r.span = d.token) := by
    rw [hextent]
    apply Draws.bind (draws_issue .schema)
    intro i ns hns
    split
    · rename_i hany
      obtain ⟨s, hs, hcollides⟩ := List.any_eq_true.mp hany
      obtain ⟨t, ht, hm⟩ := h.mirrors.exists_decl hs
      obtain ⟨n, hsn, hdn⟩ := (SchemaInfo.collides_iff_shared _ _).mp hcollides
      exact draws_reject ⟨t, ht, n, hm.isNamed n ▸ hsn, hdn, rfl, rfl⟩
    · rename_i hany
      apply draws_pure
      refine ⟨⟨rfl, ?_⟩, ?_⟩
      · intro k
        exact (hns k).trans (List.append_nil _).symm
      · rintro t ht n ⟨htn, hdn⟩
        obtain ⟨s, hs, hm⟩ := exists_left_of_paired h.mirrors.schemas ht
        apply hany
        apply List.any_eq_true.mpr ⟨s, hs, _⟩
        exact (SchemaInfo.collides_iff_shared _ _).mpr ⟨n, (hm.isNamed n).trans htn, hdn⟩
  apply Assembly.meets_insert
  apply (hdraws a.ids).mono
  · rintro s ids ⟨hdrew, ⟨hs, hnumbers⟩, hapart⟩
    rw [hs]
    exact ⟨h.addSchema hapart hdrew hnumbers, .addSchema d.isNamed_name⟩
  · rintro r _ ⟨-, hr | ⟨hkind, k, hk⟩⟩
    · exact .inl hr
    · exact .inr ⟨h.mirrors.not_hasRoom (x.outline.extent_concat d.header) hk, hkind⟩

/-! Routing records. -/

/-- Arriving at a name adds a schema at most, and marks the default one. -/
theorem Decl.Stage.step_arrive_known {d : Decl.Schema}
    (apart : x.outline.Pairwise Decl.Schema.Apart) (hd : x.outline.schema? name = some d) :
    x.step c (.arrive name)
      = { x with marked := x.marked || decide (d.name = c.defaultSchemaName) } := by
  have hany : x.outline.any (·.isNamed name) = true :=
    List.any_eq_true.mpr ⟨d, List.mem_of_find?_eq_some hd,
      List.find?_some (p := fun s : Decl.Schema => s.isNamed name) hd⟩
  have harrive : x.outline.arrive c name = x.outline := if_pos hany
  simp only [step, harrive, Outline.any_isNamed apart hd]

theorem Decl.Stage.step_arrive_new (hnone : x.outline.schema? name = none) :
    x.step c (.arrive name) =
      { x with
        outline := x.outline ++ [(c.impliedSchema name).header]
        marked := x.marked || decide (name = c.defaultSchemaName) } := by
  have hnew : ∀ t ∈ x.outline, ¬ t.isNamed name = true := List.find?_eq_none.mp hnone
  have hany : x.outline.any (·.isNamed name) = false := by
    rw [List.any_eq_false]
    exact hnew
  have harrive : x.outline.arrive c name = x.outline ++ [(c.impliedSchema name).header] := by
    unfold Outline.arrive
    rw [hany]
    rfl
  have hothers : (x.outline.any fun s =>
      s.isNamed name && decide (s.name = c.defaultSchemaName)) = false := by
    rw [List.any_eq_false]
    intro t ht
    simp [hnew t ht]
  have himplied : (c.impliedSchema name).header.isNamed name = true :=
    (c.isNamed_impliedSchema name name).mpr rfl
  have hname : (c.impliedSchema name).header.name = name := rfl
  simp only [step, harrive, List.any_append, List.any_cons, List.any_nil, hothers, himplied, hname,
    Bool.true_and, Bool.false_or, Bool.or_false]

theorem Assembly.Mirrors.findSchema?_cases (h : a.Mirrors c project x) (name : String) :
    (a.database.findSchema? name = none ∧ x.outline.schema? name = none) ∨
      ∃ s d, a.database.findSchema? name = some s ∧ x.outline.schema? name = some d ∧
        s.Mirrors a.database c x.outline d :=
  find?_of_paired h.schemas fun _ _ hm => hm.isNamed name

/-- A schema that is created on first mention. -/
theorem meets_pushImplied (h : a.Follows c project x) (hnone : x.outline.schema? name = none)
    (hmarked : x.marked = (x.marked || decide (name = c.defaultSchemaName)))
    (htagged : x.tagged = tagged) (info : SchemaInfo)
    (hinfo : info = (c.impliedSchema name).toSchemaInfo) :
    (do
      let s ← Assembly.pushSchema info {}
      pure s.id : Construction (Id .schema)).Meets a
      (fun i b => x.Linked c [.arrive name] ∧ b.Follows c project (x.step c (.arrive name)) ∧
        Into name i tagged (x.step c (.arrive name)) b)
      (fun r _ => x.Refuses c [.arrive name] r) := by
  have hstep : x.step c (.arrive name)
      = { x with outline := x.outline ++ [(c.impliedSchema name).header] } := by
    rw [Decl.Stage.step_arrive_new hnone, ← hmarked]
  subst hinfo
  apply Attempt.Meets.bind
  · apply (meets_pushSchema h (c.impliedSchema name)).mono
    · exact fun _ _ h => h
    · rintro r _ (⟨t, ht, n, htn, hn, -⟩ | ⟨hroom, hkind⟩)
      · rw [Config.isNamed_impliedSchema] at hn
        exact absurd htn (hn ▸ List.find?_eq_none.mp hnone t ht)
      · exact .inl ⟨h.mirrors.sound, .exhausted (hstep ▸ hroom) hkind⟩
  · rintro s b ⟨hb, hid⟩
    rw [hstep]
    exact Attempt.meets_pure ⟨⟨trivial, trivial⟩, hb, hid, htagged⟩

/-- The default schema on its first mention. The mark comes first, so the schema is created in a
database that has it. -/
theorem meets_pushDefault (h : a.Follows c project x) (hnone : x.outline.schema? name = none)
    (hdefault : name = c.defaultSchemaName) (htagged : x.tagged = tagged) :
    (do
      Assembly.markDefault
      let s ← Assembly.pushSchema { name, note := some c.defaultSchemaNote } {}
      pure s.id : Construction (Id .schema)).Meets a
      (fun i b => x.Linked c [.arrive name] ∧ b.Follows c project (x.step c (.arrive name)) ∧
        Into name i tagged (x.step c (.arrive name)) b)
      (fun r _ => x.Refuses c [.arrive name] r) := by
  apply Attempt.Meets.bind (Attempt.meets_modify (P := fun _ b =>
    b.Follows c project { x with marked := true }) h.mark)
  intro _ b hb
  have hmarked := meets_pushImplied hb hnone (by simp [hdefault]) htagged
    { name, note := some c.defaultSchemaNote } (by simp [Config.impliedSchema, hdefault])
  have hstep : Decl.Stage.step c { x with marked := true } (.arrive name)
      = x.step c (.arrive name) := by
    rw [Decl.Stage.step_arrive_new (x := { x with marked := true }) hnone,
      Decl.Stage.step_arrive_new hnone]
    simp [hdefault]
  rw [hstep] at hmarked
  apply hmarked.mono
  · rintro i b' ⟨-, hb', hinto⟩
    exact ⟨⟨trivial, trivial⟩, hb', hinto⟩
  · rintro r _ (⟨hsound, hr⟩ | hr)
    · cases hr with
      | exhausted hroom hkind => exact .inl ⟨hsound, .exhausted (hstep ▸ hroom) hkind⟩
    · cases hr

theorem carries_getOrCreateSchema (name : String) :
    Carries c project (fun x _ => x.tagged = tagged) (Assembly.getOrCreateSchema name)
      [.arrive name] fun i => Into name i tagged := by
  intro x a h htagged
  unfold Assembly.getOrCreateSchema
  apply Attempt.meets_state_bind
  dsimp only
  rw [h.mirrors.config]
  rcases h.mirrors.findSchema?_cases name with ⟨hfind, hnone⟩ | ⟨s, d, hfind, hd, hm⟩
  · rw [hfind]
    dsimp only
    split
    · rename_i hdefault
      exact meets_pushDefault h hnone hdefault htagged
    · rename_i hother
      exact meets_pushImplied h hnone (by simp [hother]) htagged { name }
        (by simp [Config.impliedSchema, hother])
  · have hdenotes : a.database.Denotes name s.id :=
      ⟨s, List.mem_of_find?_eq_some hfind, rfl,
        List.find?_some (p := fun s : Schema => s.isNamed name) hfind⟩
    have hstep := Decl.Stage.step_arrive_known (c := c) h.mirrors.sound.apart hd
    have hrun : x.run c [.arrive name] = x.step c (.arrive name) := rfl
    rw [hfind]
    dsimp only
    rw [hrun, hstep, ← hm.info]
    split
    · rename_i hdefault
      apply Attempt.Meets.bind (Attempt.meets_modify (P := fun _ b =>
        b.Follows c project { x with marked := true } ∧ b.database.Denotes name s.id)
          ⟨h.mark, hdenotes⟩)
      rintro _ b ⟨hb, hid⟩
      apply Attempt.meets_pure
      rw [decide_eq_true hdefault, Bool.or_true]
      exact ⟨⟨trivial, trivial⟩, hb, hid, htagged⟩
    · rename_i hother
      apply Attempt.meets_pure
      rw [decide_eq_false hother, Bool.or_false]
      exact ⟨⟨trivial, trivial⟩, h, hdenotes, htagged⟩

theorem carries_route (schemaName : Option String) :
    Carries c project (fun x _ => x.tagged = tagged) (Assembly.route schemaName)
      [.arrive (schemaName.getD c.defaultSchemaName)]
      fun i => Into (schemaName.getD c.defaultSchemaName) i tagged := by
  intro x a h htagged
  unfold Assembly.route
  apply Attempt.meets_state_bind
  dsimp only
  rw [h.mirrors.config]
  exact carries_getOrCreateSchema _ x a h htagged

theorem carries_routed {δ ε : Type} {schemaName : δ → Option String}
    {push : Id .schema → δ → Construction ε} {d : δ} {r : Decl.Item}
    (hname : schemaName d = r.schemaName)
    (hpush : ∀ name id, Carries c project (Into name id tagged) (push id d) [.place name r]
      fun _ => Into name id tagged) :
    Carries c project (fun x _ => x.tagged = tagged) (Assembly.routed schemaName push d)
      (r.steps c) fun _ x _ => x.tagged = tagged := by
  unfold Assembly.routed
  rw [hname]
  apply Carries.bind (carries_route r.schemaName)
  intro i
  exact (hpush (r.target c) i).imp (fun _ _ h => h) fun _ _ _ h => h.2

end Catalog
