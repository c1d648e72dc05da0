import Catalog.Proofs.Blame

/-!
Names that are taken. Where a record is rejected because another one of its sort has its name, the
rejection shows the schema as far as the build has come: a schema of another name than the default
one, and any schema once the default one counts as populated.
-/
namespace Catalog

variable {c : Config} {project : DatabaseInfo}

namespace Rejection

variable {r : Rejection}

/-- A name is taken by another record of its sort. -/
def OfTaken (r : Rejection) : Prop :=
  ∃ sort : ChildSort, r.kind = sort.violation

theorem ofTaken_iff : r.OfTaken ↔
    r.kind ∈ [.duplicateTableName, .duplicateEnumName, .duplicateTagName,
      .duplicateTableGroupName] := by
  constructor
  · rintro ⟨sort, hkind⟩
    rw [hkind]
    cases sort <;> decide
  · simp only [List.mem_cons, List.not_mem_nil, or_false]
    rintro (hkind | hkind | hkind | hkind)
    · exact ⟨.table, hkind⟩
    · exact ⟨.enum, hkind⟩
    · exact ⟨.tag, hkind⟩
    · exact ⟨.tableGroup, hkind⟩

theorem not_ofTaken {k : ViolationKind} (hkind : r.kind = k)
    (hk : k ∉ [.duplicateTableName, .duplicateEnumName, .duplicateTagName,
      .duplicateTableGroupName]) : ¬ r.OfTaken :=
  fun htaken => hk (hkind ▸ ofTaken_iff.mp htaken)

theorem OfTaken.isDuplicate (h : r.OfTaken) : r.isDuplicate = true := by
  obtain ⟨sort, hkind⟩ := h
  rw [Rejection.isDuplicate, hkind]
  cases sort <;> rfl

end Rejection

namespace Decl

/-- The schema that a rejection shows, as far as the build has come. -/
def Stage.shown (c : Config) (x : Stage) (s : Schema) : Option String :=
  if s.name ≠ c.defaultSchemaName ∨ x.marked then some s.name else none

/-- The name of a record is taken when its turn comes, and the rejection says so. -/
inductive Step.Clashes (c : Config) (x : Stage) : Step → Rejection → Prop
  | place {name own : String} {s : Schema} {rec : Item} {sort : ChildSort} :
      x.outline.Sound c → x.outline.schema? name = some s → rec.label? = some (sort, own) →
      own ∈ s.names sort → Clashes c x (.place name rec)
        { cause := .duplicateChild sort (x.shown c s) own, span := rec.token }

/-- Some step clashes when its turn comes. -/
def Stage.Clashes (c : Config) (x : Stage) (steps : List Step) (r : Rejection) : Prop :=
  ∃ pre st post, steps = pre ++ st :: post ∧ st.Clashes c (x.run c pre) r

namespace Stage.Clashes

variable {x : Stage} {steps steps' : List Step} {r : Rejection}

theorem append_right (h : x.Clashes c steps r) (steps' : List Step) :
    x.Clashes c (steps ++ steps') r := by
  obtain ⟨pre, st, post, rfl, hst⟩ := h
  exact ⟨pre, st, post ++ steps', by simp, hst⟩

theorem append_left (h : (x.run c steps).Clashes c steps' r) : x.Clashes c (steps ++ steps') r := by
  obtain ⟨pre, st, post, rfl, hst⟩ := h
  refine ⟨steps ++ pre, st, post, by simp, ?_⟩
  rw [run_append]
  exact hst

end Stage.Clashes

/-- Only records with names of their own are refused because a name is taken. -/
theorem Step.Refused.exists_taken {x : Stage} {st : Step} {r : Rejection} (h : st.Refused c x r)
    (hr : r.OfTaken) : ∃ name rec s sort own, st = .place name rec ∧
      x.outline.schema? name = some s ∧ rec.label? = some (sort, own) ∧ own ∈ s.names sort ∧
      r.span = rec.token := by
  cases h with
  | declare _ _ _ hkind => exact absurd hr (Rejection.not_ofTaken hkind (by decide))
  | place hs hrefused =>
    cases hrefused with
    | unlinked hu =>
      have hdup := hr.isDuplicate
      rw [hu.not_isDuplicate] at hdup
      cases hdup
    | taken hlabel hown _ hspan => exact ⟨_, _, _, _, _, rfl, hs, hlabel, hown, hspan⟩
    | field _ _ hkind => exact absurd hr (Rejection.not_ofTaken hkind (by decide))
    | value _ _ hkind => exact absurd hr (Rejection.not_ofTaken hkind (by decide))
    | ends _ _ _ _ hkind => exact absurd hr (Rejection.not_ofTaken hkind (by decide))
    | grouped _ _ _ _ hkind => exact absurd hr (Rejection.not_ofTaken hkind (by decide))
  | exhausted _ hkind => exact absurd hr (Rejection.not_ofTaken hkind (by decide))

/-- A step that places no record with a name of its own. -/
def Step.Nameless (st : Step) : Prop :=
  ∀ name rec, st = .place name rec → rec.label? = none

end Decl

/-- Where `P` holds, the computation does what the steps do, and `R` holds then. It is rejected for
a name that is taken only where one of the steps clashes. -/
def Reports {α : Type} (c : Config) (project : DatabaseInfo) (P : Decl.Stage → Assembly → Prop)
    (m : Construction α) (steps : List Decl.Step) (R : α → Decl.Stage → Assembly → Prop) : Prop :=
  ∀ x a, a.Follows c project x → P x a → m.Meets a
    (fun v b => b.Follows c project (x.run c steps) ∧ R v (x.run c steps) b)
    (fun r _ => r.OfTaken → x.Clashes c steps r)

namespace Reports

variable {α β : Type} {P : Decl.Stage → Assembly → Prop} {m : Construction α}
  {f : α → Construction β} {steps steps' : List Decl.Step} {R : α → Decl.Stage → Assembly → Prop}
  {S : β → Decl.Stage → Assembly → Prop}

theorem imp {R' : α → Decl.Stage → Assembly → Prop} (h : Reports c project P m steps R)
    (hR : ∀ v x a, R v x a → R' v x a) : Reports c project P m steps R' := by
  intro x a hx hpre
  apply (h x a hx hpre).imp
  rintro v b ⟨hb, hv⟩
  exact ⟨hb, hR _ _ _ hv⟩

theorem steps_eq (h : Reports c project P m steps R) (heq : steps = steps') :
    Reports c project P m steps' R :=
  heq ▸ h

theorem bind (hm : Reports c project P m steps R)
    (hf : ∀ v, Reports c project (R v) (f v) steps' S) :
    Reports c project P (m >>= f) (steps ++ steps') S := by
  intro x a hx hP
  apply Attempt.Meets.bind
  · apply (hm x a hx hP).mono
    · exact fun _ _ h => h
    · intro r _ hr htaken
      exact (hr htaken).append_right steps'
  · rintro v b ⟨hb, hv⟩
    apply (hf v _ b hb hv).mono
    · rintro w b' ⟨hb', hw⟩
      rw [Decl.Stage.run_append]
      exact ⟨hb', hw⟩
    · intro r _ hr htaken
      exact (hr htaken).append_left

theorem forEach {f : β → Construction α} {steps : β → List Decl.Step} {l : List β}
    (h : ∀ d ∈ l, Reports c project P (f d) (steps d) fun _ => P) :
    Reports c project P (Attempt.forEach f l) (l.flatMap steps) fun _ => P := by
  induction l with
  | nil => exact fun x a hx hP => Attempt.meets_pure ⟨hx, hP⟩
  | cons d l ih =>
    apply Reports.bind (h d List.mem_cons_self)
    intro _
    exact ih fun d' hd' => h d' (List.mem_cons_of_mem d hd')

/-- Steps without names never clash. -/
theorem of_nameless (h : Carries c project P m steps R) (hsteps : ∀ st ∈ steps, st.Nameless) :
    Reports c project P m steps R := by
  intro x a hx hP
  apply (h x a hx hP).mono
  · rintro v b ⟨-, hb, hv⟩
    exact ⟨hb, hv⟩
  · intro r _ hr htaken
    obtain ⟨pre, st, post, rfl, -, hst⟩ := hr.exists_split
    obtain ⟨name, rec, s, sort, own, rfl, -, hlabel, -⟩ := hst.exists_taken htaken
    rw [hsteps (.place name rec) (by simp) name rec rfl] at hlabel
    cases hlabel

end Reports

section Insertions

variable {x : Decl.Stage} {a : Assembly} {db : Database} {s : Schema} {id : Id .schema}
  {name own : String} {sort : ChildSort} {tagged : Bool}

/-- The database shows a schema as the stage does that it follows. -/
theorem Assembly.Mirrors.shownSchema (h : a.Mirrors c project x) {d : Decl.Schema}
    (hinfo : s.toSchemaInfo = d.toSchemaInfo) : a.database.shownSchema s = x.shown c d := by
  unfold Database.shownSchema Decl.Stage.shown
  rw [h.config, h.marked, hinfo]

/-- The placement of a record with a name. What the computation checks besides the name is not
rejected for a name that is taken. -/
theorem Reports.of_place {α : Type} {m : Construction α} {rec : Decl.Item}
    {R : α → Decl.Stage → Assembly → Prop} (hlabel : rec.label? = some (sort, own))
    (h : Carries c project (Into name id tagged) m [.place name rec] R)
    (hcause : ∀ x a s, a.Follows c project x → a.database.schema? id = some s →
      m.Meets a (fun _ _ => True) fun r _ => r.OfTaken →
        r.cause = .duplicateChild sort (a.database.shownSchema s) own) :
    Reports c project (Into name id tagged) m [.place name rec] R := by
  intro x a hx hinto
  obtain ⟨s, d, hs, -, -, hd, hm⟩ := hx.mirrors.schema?_of_denotes hinto.1
  apply ((h x a hx hinto).and (hcause x a s hx hs)).mono
  · rintro v b ⟨⟨-, hb, hv⟩, -⟩
    exact ⟨hb, hv⟩
  · rintro ⟨cause, span⟩ _ ⟨⟨hsound, hr⟩ | hr, hcause⟩ htaken
    · obtain ⟨_, _, d', sort', own', ⟨⟩, hd', hlabel', hown, rfl⟩ := hr.exists_taken htaken
      rw [hlabel] at hlabel'
      rw [hd] at hd'
      cases hlabel'
      cases hd'
      obtain rfl : cause = .duplicateChild sort (x.shown c d) own :=
        hx.mirrors.shownSchema hm.info ▸ hcause htaken
      exact ⟨[], _, [], rfl, .place hsound hd hlabel hown⟩
    · cases hr

/-! Drafts. Only the check of the name is rejected for a name that is taken. -/

theorem Draws.meets_of_not_ofTaken {α : Type} {draft : Drafting α} {need : Kind → Nat}
    {R : α → (Kind → List Nat) → Prop} {Q T : Rejection → Prop} {P : α → Prop}
    (h : Draws draft need R Q) (hR : ∀ v ns, R v ns → P v) (hQ : ∀ r, Q r → ¬ r.OfTaken)
    (ids : Allocator) : draft.Meets ids (fun v _ => P v) fun r _ => r.OfTaken → T r := by
  apply (h ids).mono
  · rintro v _ ⟨-, hv⟩
    exact hR _ _ hv
  · rintro r _ ⟨-, hr | ⟨hkind, -⟩⟩ htaken
    · exact absurd htaken (hQ r hr)
    · exact absurd htaken (Rejection.not_ofTaken hkind (by decide))

theorem meets_checkName (hs : db.schema? id = some s) (sort : ChildSort) (own : String)
    (token : Span) (ids : Allocator) :
    (Assembly.checkName db id sort own token).Meets ids (fun _ _ => True) fun r _ => r.OfTaken →
      r.cause = .duplicateChild sort (db.shownSchema s) own := by
  unfold Assembly.checkName
  rw [hs]
  dsimp only
  split
  · exact Attempt.meets_reject fun _ => rfl
  · exact Attempt.meets_pure trivial

theorem meets_labelled {δ ε : Type} {draft : Drafting δ} {nameOf : δ → String}
    {tokenOf : δ → Span} {f : δ → ε} {ids : Allocator} (hs : db.schema? id = some s)
    (hdraft : draft.Meets ids (fun v _ => nameOf v = own) fun r _ => r.OfTaken →
      r.cause = .duplicateChild sort (db.shownSchema s) own) :
    (do
      let v ← draft
      Assembly.checkName db id sort (nameOf v) (tokenOf v)
      pure (f v) : Drafting ε).Meets ids (fun _ _ => True) fun r _ => r.OfTaken →
        r.cause = .duplicateChild sort (db.shownSchema s) own := by
  apply Attempt.Meets.bind hdraft
  rintro v ids' rfl
  apply Attempt.Meets.bind (meets_checkName hs sort (nameOf v) (tokenOf v) ids')
  exact fun _ _ _ => Attempt.meets_pure trivial

theorem reports_pushTable (d : Decl.Table) :
    Reports c project (Into name id false) (Assembly.pushTable id d) [.place name (.table d)]
      fun _ => Into name id false := by
  apply Reports.of_place rfl (carries_pushTable d)
  intro x a s _ hs
  apply Assembly.meets_insert
  apply meets_labelled hs
  apply (draws_table d).meets_of_not_ofTaken
  · rintro t _ ⟨hdecl, -⟩
    exact congrArg (·.name) hdecl
  · rintro r ⟨_, _, _, _, _, hkind, _⟩
    exact Rejection.not_ofTaken hkind (by decide)

theorem reports_pushTag (d : Decl.Tag) :
    Reports c project (Into name id tagged) (Assembly.pushTag id d) [.place name (.tag d)]
      fun _ => Into name id tagged := by
  apply Reports.of_place rfl (carries_pushTag d)
  intro x a s _ hs
  apply Assembly.meets_insert
  apply meets_labelled hs
  exact (draws_issue .tag).meets_of_not_ofTaken (fun _ _ _ => rfl) (fun _ => False.elim) a.ids

theorem reports_pushEnum (d : Decl.Enum) :
    Reports c project (Into name id tagged) (Assembly.pushEnum id d) [.place name (.enum d)]
      fun _ => Into name id tagged := by
  apply Reports.of_place rfl (carries_pushEnum d)
  intro x a s _ hs
  apply Assembly.meets_insert
  apply meets_labelled hs
  apply (draws_enum d).meets_of_not_ofTaken
  · rintro e _ ⟨hdecl, -⟩
    exact congrArg (·.name) hdecl
  · rintro r ⟨_, _, _, _, _, hkind, _⟩
    exact Rejection.not_ofTaken hkind (by decide)

theorem reports_pushRef (d : Decl.Ref) :
    Reports c project (Into name id tagged) (Assembly.pushRef id d) [.place name (.ref d)]
      fun _ => Into name id tagged := by
  apply Reports.of_nameless (carries_pushRef d)
  rintro st hst _ _ rfl
  cases List.mem_singleton.mp hst
  rfl

theorem reports_pushTableGroup (d : Decl.TableGroup) :
    Reports c project (Into name id tagged) (Assembly.pushTableGroup id d)
      [.place name (.tableGroup d)] fun _ => Into name id tagged := by
  apply Reports.of_place rfl (carries_pushTableGroup d)
  intro x a s hx hs
  apply Assembly.meets_insert
  apply Attempt.Meets.bind (P := fun _ _ => True)
  · cases hres : a.database.resolveMembers d.token [] d.tables with
    | error r =>
      obtain ⟨m, -, hmiss, -⟩ := hx.mirrors.resolveMembers_error hres
      apply Attempt.meets_reject
      intro htaken
      have hdup := htaken.isDuplicate
      rw [Rejection.isDuplicate, hmiss.not_isDuplicate] at hdup
      cases hdup
    | ok tables => exact Attempt.meets_pure trivial
  · intro tables ids _
    apply Attempt.Meets.bind ((draws_issue .tableGroup).meets_of_not_ofTaken
      (fun _ _ _ => trivial) (fun _ => False.elim) ids)
    intro i ids' _
    apply Attempt.Meets.bind (meets_checkName hs .tableGroup d.name d.token ids')
    intro _ ids'' _
    apply Attempt.Meets.bind ((draws_checkUngrouped_of_grouped tables d.token).meets_of_not_ofTaken
      (fun _ _ _ => trivial) _ ids'')
    · exact fun _ _ _ => Attempt.meets_pure trivial
    · rintro r ⟨-, hkind, -⟩
      exact Rejection.not_ofTaken hkind (by decide)

/-! The whole build. -/

theorem reports_process (d : Decl.Schema) :
    Reports c project (Into name id false) (Assembly.process id d)
      (d.records.map (.place name)) fun _ => Into name id false := by
  apply Reports.steps_eq _ (d.places_by_sort name)
  unfold Assembly.process
  apply Reports.bind (Reports.forEach fun t _ => reports_pushTable t)
  intro _
  apply Reports.bind (Reports.forEach fun t _ => reports_pushTag t)
  intro _
  apply Reports.bind (Reports.forEach fun e _ => reports_pushEnum e)
  intro _
  apply Reports.bind (Reports.forEach fun r _ => reports_pushRef r)
  intro _
  exact Reports.forEach fun g _ => reports_pushTableGroup g

theorem reports_declareSchema (d : Decl.Schema) :
    Reports c project (fun x _ => x.tagged = false) (Assembly.declareSchema d) d.steps
      fun _ x _ => x.tagged = false := by
  unfold Assembly.declareSchema
  apply Reports.bind (Reports.of_nameless (carries_pushSchema d) (by simp [Decl.Step.Nameless]))
  intro s
  apply Reports.bind (reports_process d)
  intro _
  exact Reports.of_nameless carries_markIfDefault (by simp [Decl.Step.Nameless])

theorem reports_routed {δ ε : Type} {schemaName : δ → Option String}
    {push : Id .schema → δ → Construction ε} {l : List δ} (record : δ → Decl.Item)
    (hname : ∀ d, schemaName d = (record d).schemaName)
    (hpush : ∀ d name id, Reports c project (Into name id tagged) (push id d)
      [.place name (record d)] fun _ => Into name id tagged) :
    Reports c project (fun x _ => x.tagged = tagged)
      (Attempt.forEach (Assembly.routed schemaName push) l)
      (l.flatMap fun d => (record d).steps c) fun _ x _ => x.tagged = tagged := by
  apply Reports.forEach
  intro d _
  unfold Assembly.routed
  rw [hname]
  apply Reports.bind (Reports.of_nameless (carries_route (record d).schemaName)
    (by simp [Decl.Step.Nameless]))
  intro i
  exact (hpush d ((record d).target c) i).imp fun _ _ _ h => h.2

theorem reports_addBundle (b : Decl.Bundle) :
    Reports c project (fun x _ => x.tagged = false) (Assembly.addBundle b) (b.steps c)
      fun _ _ _ => True := by
  apply Reports.steps_eq _ (b.steps_by_phase c)
  unfold Assembly.addBundle
  apply Reports.bind (Reports.forEach fun d _ => reports_declareSchema d)
  intro _
  apply Reports.bind (reports_routed .table (fun _ => rfl) fun d _ _ => reports_pushTable d)
  intro _
  apply Reports.bind (reports_routed .tag (fun _ => rfl) fun d _ _ => reports_pushTag d)
  intro _
  apply Reports.bind (Reports.of_nameless carries_bindTags (by simp [Decl.Step.Nameless]))
  intro _
  apply Reports.bind (reports_routed .ref (fun _ => rfl) fun d _ _ => reports_pushRef d)
  intro _
  apply Reports.bind (reports_routed .enum (fun _ => rfl) fun d _ _ => reports_pushEnum d)
  intro _
  apply Reports.bind (reports_routed .tableGroup (fun _ => rfl)
    fun d _ _ => reports_pushTableGroup d)
  intro _
  apply Reports.of_nameless _ (by simp)
  exact carries_bindRemaining.imp (fun _ _ _ => trivial) fun _ _ _ h => h

end Insertions

/-- A build that is rejected for a name that is taken comes to a step that clashes. -/
theorem Assembly.clashes_of_build {b : Decl.Bundle} {r : Rejection} (h : build b c = .error r)
    (hr : r.OfTaken) : ({} : Decl.Stage).Clashes c (b.steps c) r := by
  unfold build at h
  split at h
  · cases h
  · rename_i r' a hrun
    cases h
    exact (reports_addBundle b {} _ (follows_start c b.project) rfl).of_run_error hrun hr

end Catalog
