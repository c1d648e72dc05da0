import Catalog.Proofs.Mirror.Route

/-!
A build carries out the steps of its bundle.
-/
namespace Catalog

variable {c : Config} {project : DatabaseInfo} {x : Decl.Stage} {a : Assembly} {name : String}
  {id : Id .schema} {tagged : Bool}

theorem Carries.steps_eq {α : Type} {P : Decl.Stage → Assembly → Prop} {m : Construction α}
    {steps steps' : List Decl.Step} {R : α → Decl.Stage → Assembly → Prop}
    (h : Carries c project P m steps R) (heq : steps = steps') :
    Carries c project P m steps' R :=
  heq ▸ h

/-! Declared schemas. -/

theorem Decl.Schema.places_by_sort (d : Decl.Schema) (name : String) :
    d.tables.flatMap (fun t => [Step.place name (.table t)]) ++
      (d.tags.flatMap (fun t => [Step.place name (.tag t)]) ++
        (d.enums.flatMap (fun e => [Step.place name (.enum e)]) ++
          (d.refs.flatMap (fun r => [Step.place name (.ref r)]) ++
            d.tableGroups.flatMap fun g => [Step.place name (.tableGroup g)])))
      = d.records.map (.place name) := by
  simp [records, List.map_eq_flatMap, List.flatMap_assoc]

theorem carries_process (d : Decl.Schema) :
    Carries c project (Into name id false) (Assembly.process id d)
      (d.records.map (.place name)) fun _ => Into name id false := by
  apply Carries.steps_eq _ (d.places_by_sort name)
  unfold Assembly.process
  apply Carries.bind (Carries.forEach fun t _ => carries_pushTable t)
  intro _
  apply Carries.bind (Carries.forEach fun t _ => carries_pushTag t)
  intro _
  apply Carries.bind (Carries.forEach fun e _ => carries_pushEnum e)
  intro _
  apply Carries.bind (Carries.forEach fun r _ => carries_pushRef r)
  intro _
  exact Carries.forEach fun g _ => carries_pushTableGroup g

theorem Schema.Mirrors.isPopulated {db : Database} {o : Decl.Outline} {s : Schema} {d : Decl.Schema}
    (h : s.Mirrors db c o d) : d.isPopulated = !s.isEmpty := by
  have empty : ∀ {α β : Type} {R : α → β → Prop} {l : List α} {l' : List β},
      List.Forall₂ R l l' → l.isEmpty = l'.isEmpty := by
    intro α β R l l' h
    cases h <;> rfl
  rw [Decl.Schema.isPopulated_eq, isEmpty, ← empty h.tables, ← empty h.enums, ← empty h.refs,
    ← empty h.tags, ← empty h.tableGroups]
  cases s.tables.isEmpty <;> cases s.enums.isEmpty <;> cases s.refs.isEmpty <;>
    cases s.tags.isEmpty <;> rfl

theorem carries_markIfDefault :
    Carries c project (Into name id tagged) (Assembly.markIfDefault id) [.close name]
      fun _ x _ => x.tagged = tagged := by
  rintro x a h ⟨hid, htagged⟩
  obtain ⟨s, d, hs, -, -, hd, hm⟩ := h.mirrors.schema?_of_denotes hid
  have hstep : x.run c [.close name]
      = { x with marked := x.marked || (decide (s.name = c.defaultSchemaName) && !s.isEmpty) } := by
    have hany := Decl.Outline.any_isNamed h.mirrors.sound.apart hd
      fun s => decide (s.name = c.defaultSchemaName) && s.isPopulated
    simp only [← Bool.and_assoc] at hany
    have hname : s.name = d.name := congrArg (·.name) hm.info
    simp only [Decl.Stage.run, List.foldl_cons, List.foldl_nil, Decl.Stage.step, hany, hname,
      hm.isPopulated]
  rw [hstep]
  apply Attempt.meets_modify
  refine ⟨⟨trivial, trivial⟩, ?_, htagged⟩
  rw [hs, h.mirrors.config]
  dsimp only
  split
  · rename_i hboth
    rw [decide_eq_true hboth.1, hboth.2, Bool.not_false, Bool.and_true, Bool.or_true]
    exact h.mark
  · rename_i hboth
    have hfalse : (decide (s.name = c.defaultSchemaName) && !s.isEmpty) = false := by
      rw [← Bool.not_eq_true, Bool.and_eq_true, decide_eq_true_eq, Bool.not_eq_true']
      exact hboth
    rw [hfalse, Bool.or_false]
    exact h

theorem carries_pushSchema (d : Decl.Schema) :
    Carries c project (fun x _ => x.tagged = false) (Assembly.pushSchema d.toSchemaInfo d.token)
      [.declare d] fun s => Into d.name s.id false := by
  intro x a h htagged
  apply (meets_pushSchema h d).mono
  · rintro s b ⟨hb, hid⟩
    exact ⟨⟨trivial, trivial⟩, hb, hid, htagged⟩
  · rintro r _ (⟨t, ht, n, htn, hdn, hkind, hspan⟩ | ⟨hroom, hkind⟩)
    · exact .inl ⟨h.mirrors.sound, .declare ht htn hdn hkind hspan⟩
    · exact .inl ⟨h.mirrors.sound, .exhausted hroom hkind⟩

theorem carries_declareSchema (d : Decl.Schema) :
    Carries c project (fun x _ => x.tagged = false) (Assembly.declareSchema d) d.steps
      fun _ x _ => x.tagged = false := by
  unfold Assembly.declareSchema
  apply Carries.bind (carries_pushSchema d)
  intro s
  apply Carries.bind (carries_process d)
  intro _
  exact carries_markIfDefault

/-! Whole bundles. -/

theorem carries_allRouted {δ ε : Type} {schemaName : δ → Option String}
    {push : Id .schema → δ → Construction ε} {l : List δ} (record : δ → Decl.Item)
    (hname : ∀ d, schemaName d = (record d).schemaName)
    (hpush : ∀ d name id, Carries c project (Into name id tagged) (push id d)
      [.place name (record d)] fun _ => Into name id tagged) :
    Carries c project (fun x _ => x.tagged = tagged)
      (Attempt.forEach (Assembly.routed schemaName push) l)
      (l.flatMap fun d => (record d).steps c) fun _ x _ => x.tagged = tagged :=
  Carries.forEach fun d _ => carries_routed (hname d) (hpush d)

theorem carries_bindRemaining :
    Carries c project (fun _ _ => True) Assembly.bindRemaining [] fun _ _ _ => True := by
  have bindEnums : ∀ (es : List Enum) (db : Database) (ids : Allocator) (x : Decl.Stage),
      Assembly.Follows c project x ⟨db, ids⟩ →
        Assembly.Follows c project x ⟨es.foldl (fun db e => db.bindEnum e.id) db, ids⟩ := by
    intro es
    induction es with
    | nil => exact fun _ _ _ h => h
    | cons e es ih =>
      intro db ids x h
      apply ih
      obtain ⟨f, g, hbind, hf, hg⟩ := db.bindEnum_eq_relink e.id
      dsimp only
      rw [hbind]
      exact h.relink hf hg
  intro x a h _
  apply Attempt.meets_modify
  refine ⟨trivial, ?_, trivial⟩
  split
  · exact h
  · exact bindEnums _ _ _ x h

theorem Decl.Bundle.steps_by_phase (b : Decl.Bundle) (c : Config) :
    b.schemas.flatMap (·.steps) ++
      (b.tables.flatMap (fun t => (Item.table t).steps c) ++
        (b.tags.flatMap (fun t => (Item.tag t).steps c) ++
          ([.implyTags] ++
            (b.refs.flatMap (fun r => (Item.ref r).steps c) ++
              (b.enums.flatMap (fun e => (Item.enum e).steps c) ++
                (b.tableGroups.flatMap (fun g => (Item.tableGroup g).steps c) ++ []))))))
      = b.steps c := by
  simp [steps, taggedRecords, laterRecords, List.flatMap_append, List.flatMap_map]

theorem carries_addBundle (b : Decl.Bundle) :
    Carries c project (fun x _ => x.tagged = false) (Assembly.addBundle b) (b.steps c)
      fun _ _ _ => True := by
  apply Carries.steps_eq _ (b.steps_by_phase c)
  unfold Assembly.addBundle
  apply Carries.bind (Carries.forEach fun d _ => carries_declareSchema d)
  intro _
  apply Carries.bind (carries_allRouted .table (fun _ => rfl) fun d _ _ => carries_pushTable d)
  intro _
  apply Carries.bind (carries_allRouted .tag (fun _ => rfl) fun d _ _ => carries_pushTag d)
  intro _
  apply Carries.bind carries_bindTags
  intro _
  apply Carries.bind (carries_allRouted .ref (fun _ => rfl) fun d _ _ => carries_pushRef d)
  intro _
  apply Carries.bind (carries_allRouted .enum (fun _ => rfl) fun d _ _ => carries_pushEnum d)
  intro _
  apply Carries.bind (carries_allRouted .tableGroup (fun _ => rfl)
    fun d _ _ => carries_pushTableGroup d)
  intro _
  exact carries_bindRemaining.imp (fun _ _ _ => trivial) fun _ _ _ h => h

theorem Assembly.follows_start (c : Config) (project : DatabaseInfo) :
    (start c project).Follows c project {} where
  mirrors := {
    config := rfl
    project := rfl
    base := rfl
    issued := by
      intro k
      rw [start, Allocator.issued_advance, Allocator.issued_start]
      simp [Decl.Outline.extent]
    numbers := by
      intro k
      simp only [start, Database.numbers, Decl.Outline.extent, List.flatMap_nil, List.append_nil,
        List.map_nil, List.sum_nil, Nat.add_zero, Id.number]
      split <;> exact .refl _
    schemas := .nil
    untagged := fun _ s hs => by cases hs
    tagged := fun _ s hs => by cases hs
    marked := rfl
    sound := Decl.Outline.sound_nil c }
  grouped := fun s hs => by cases hs

theorem meets_addBundle (b : Decl.Bundle) (c : Config) :
    (Assembly.addBundle b).Meets (Assembly.start c b.project)
      (fun _ a => ({} : Decl.Stage).Linked c (b.steps c) ∧
        a.Follows c b.project (({} : Decl.Stage).run c (b.steps c)))
      (fun r _ => ({} : Decl.Stage).Refuses c (b.steps c) r) := by
  apply (carries_addBundle b {} _ (Assembly.follows_start c b.project) rfl).imp
  rintro _ a ⟨hlinked, ha, -⟩
  exact ⟨hlinked, ha⟩

namespace Assembly

variable {b : Decl.Bundle}

theorem follows_of_build (h : build b c = .ok a) : ({} : Decl.Stage).Linked c (b.steps c) ∧
    a.Follows c b.project (({} : Decl.Stage).run c (b.steps c)) := by
  unfold build at h
  split at h
  · rename_i a' hrun
    cases h
    exact (meets_addBundle b c).of_run_ok hrun
  · cases h

theorem refuses_of_build {r : Rejection} (h : build b c = .error r) :
    ({} : Decl.Stage).Refuses c (b.steps c) r := by
  unfold build at h
  split at h
  · cases h
  · rename_i r' a' hrun
    cases h
    exact (meets_addBundle b c).of_run_error hrun

end Assembly

theorem Database.build_eq_ok_iff {b : Decl.Bundle} {db : Database} :
    build b c = .ok db ↔ ∃ a, Assembly.build b c = .ok a ∧ a.database = db := by
  unfold build
  cases Assembly.build b c with
  | error r => simp [Except.map]
  | ok a => simp [Except.map]

theorem Database.exists_build_iff_assembly {b : Decl.Bundle} :
    (∃ db, build b c = .ok db) ↔ ∃ a, Assembly.build b c = .ok a := by
  constructor
  · rintro ⟨db, hdb⟩
    obtain ⟨a, ha, -⟩ := build_eq_ok_iff.mp hdb
    exact ⟨a, ha⟩
  · rintro ⟨a, ha⟩
    exact ⟨a.database, build_eq_ok_iff.mpr ⟨a, ha, rfl⟩⟩

theorem exists_ok_of_any {ε α : Type} {x : Except ε α} {p : α → Bool}
    (h : x.toOption.any p = true) : ∃ v, x = .ok v ∧ p v = true := by
  cases x with
  | error r => cases h
  | ok v => exact ⟨v, rfl, h⟩

theorem Database.exists_build_of_any {b : Decl.Bundle} {p : Database → Bool}
    (h : (build b c).toOption.any p = true) : ∃ db, build b c = .ok db ∧ p db = true :=
  exists_ok_of_any h

theorem Database.build_eq_error_iff {b : Decl.Bundle} {r : Rejection} :
    build b c = .error r ↔ Assembly.build b c = .error r := by
  unfold build
  cases Assembly.build b c with
  | error r => simp [Except.map]
  | ok a => simp [Except.map]

end Catalog
