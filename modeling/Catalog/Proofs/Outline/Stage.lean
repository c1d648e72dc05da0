import Catalog.Proofs.Outline.Step

/-!
A build as a sequence of steps. Each step either extends the outline or is refused, and what a
refusal says is true of the outline as it stands. If all steps together lead to a sound outline, the
only refusals on the way are those of links that lead nowhere yet.
-/
namespace Catalog.Decl

/-- How far a build has come. -/
structure Stage where
  outline : Outline := []
  /-- The tags that tables mention have been added. -/
  tagged : Bool := false
  /-- The default schema counts as populated. -/
  marked : Bool := false

inductive Step where
  | declare (d : Schema)
  | arrive (name : String)
  | place (name : String) (r : Item)
  /-- All records nested in a declared schema are placed. -/
  | close (name : String)
  | implyTags

namespace Stage

def step (c : Config) (x : Stage) : Step → Stage
  | .declare d => { x with outline := x.outline ++ [d.header] }
  | .arrive name =>
    let o := x.outline.arrive c name
    { x with
      outline := o
      marked := x.marked || o.any fun s => s.isNamed name && s.name = c.defaultSchemaName }
  | .place name r => { x with outline := x.outline.place name r }
  | .close name =>
    { x with
      marked := x.marked || x.outline.any fun s =>
        s.isNamed name && s.name = c.defaultSchemaName && s.isPopulated }
  | .implyTags => { x with outline := x.outline.map (·.withImpliedTags), tagged := true }

def run (c : Config) (x : Stage) (steps : List Step) : Stage :=
  steps.foldl (step c) x

theorem run_append (c : Config) (x : Stage) (pre post : List Step) :
    x.run c (pre ++ post) = (x.run c pre).run c post :=
  List.foldl_append

theorem grows_step (c : Config) (x : Stage) (st : Step) :
    x.outline.Grows (x.step c st).outline := by
  cases st with
  | declare d => exact Outline.grows_append _ _
  | arrive name => exact Outline.grows_arrive c _ name
  | place name r => exact Outline.grows_place _ name r
  | close name => exact Outline.Grows.refl _
  | implyTags => exact Outline.grows_map _ fun s _ => s.grows_withImpliedTags

theorem grows_run (c : Config) (x : Stage) (steps : List Step) :
    x.outline.Grows (x.run c steps).outline := by
  induction steps generalizing x with
  | nil => exact Outline.Grows.refl _
  | cons st steps ih => exact (grows_step c x st).trans (ih (x.step c st))

end Stage

namespace Outline

/-- Nothing answers to the name of a table, or not even to that of its schema. -/
inductive Misses (c : Config) (o : Outline) (schemaName : Option String) (tableName : String) :
    ViolationKind → Prop
  | schema : o.schema? (schemaName.getD c.defaultSchemaName) = none →
      Misses c o schemaName tableName .schemaNotFound
  | table {s : Schema} : o.schema? (schemaName.getD c.defaultSchemaName) = some s →
      s.tables.find? (·.isNamed tableName) = none →
      Misses c o schemaName tableName .tableNotFound

/-- What is wrong with an endpoint taken by itself. -/
inductive Fails (c : Config) (o : Outline) (e : EndpointInfo) : ViolationKind → Prop
  | table {k : ViolationKind} : o.Misses c e.schemaName e.tableName k → Fails c o e k
  | field {s : Schema} {t : Table} {name : String} :
      o.locate? c e.schemaName e.tableName = some (s, t) → name ∈ e.fieldNames →
      name ∉ t.fields.map (·.name) → Fails c o e .fieldNotFound
  | repeated : ¬ e.fieldNames.Nodup → Fails c o e .invalidEndpoints

end Outline

namespace Item

/-- What is wrong with the links of a record. -/
inductive Unlinked (c : Config) (o : Outline) : Item → Rejection → Prop
  | count {d : Ref} {r : Rejection} : d.endpoints.length ≠ 2 → r.kind = .invalidEndpoints →
      r.span = d.token → Unlinked c o (.ref d) r
  | endpoint {d : Ref} {e : Endpoint} {r : Rejection} : e ∈ d.endpoints →
      o.Fails c e.toEndpointInfo r.kind → r.span = e.token.orElse d.token →
      Unlinked c o (.ref d) r
  | lengths {d : Ref} {e₁ e₂ : Endpoint} {r : Rejection} : d.endpoints = [e₁, e₂] →
      e₁.fieldNames.length ≠ e₂.fieldNames.length → r.kind = .invalidEndpoints →
      r.span = d.token → Unlinked c o (.ref d) r
  | same {d : Ref} {e₁ e₂ : Endpoint} {r : Rejection} : d.endpoints = [e₁, e₂] →
      o.Resolves c e₁.toEndpointInfo → o.Resolves c e₂.toEndpointInfo →
      SameElements (o.cover c e₁.toEndpointInfo) (o.cover c e₂.toEndpointInfo) →
      r.kind = .invalidEndpoints → r.span = d.token → Unlinked c o (.ref d) r
  | member {g : TableGroup} {m : Member} {r : Rejection} : m ∈ g.tables →
      o.Misses c m.schemaName m.name r.kind → r.span = m.token.orElse g.token →
      Unlinked c o (.tableGroup g) r

/-- What speaks against placing a record in a schema of an outline. -/
inductive Refused (c : Config) (o : Outline) (s : Schema) : Item → Rejection → Prop
  | unlinked {rec : Item} {r : Rejection} : rec.Unlinked c o r → Refused c o s rec r
  | taken {rec : Item} {r : Rejection} {sort : ChildSort} {name : String} :
      rec.label? = some (sort, name) → name ∈ s.names sort → r.kind = sort.violation →
      r.span = rec.token → Refused c o s rec r
  | field {d : Table} {pre post : List Field} {f : Field} {r : Rejection} :
      d.fields = pre ++ f :: post → f.name ∈ pre.map (·.name) → r.kind = .duplicateFieldName →
      r.span = f.token → Refused c o s (.table d) r
  | value {d : Enum} {pre post : List EnumValue} {v : EnumValue} {r : Rejection} :
      d.values = pre ++ v :: post → v.name ∈ pre.map (·.name) → r.kind = .duplicateEnumValue →
      r.span = v.token → Refused c o s (.enum d) r
  | ends {d d' : Ref} {r : Rejection} : o.Connects c d → o.Connects c d' → d' ∈ s.refs →
      o.SameEnds c d d' → r.kind = .duplicateRef → r.span = d.token → Refused c o s (.ref d) r
  | grouped {g g' : TableGroup} {s' : Schema} {p : TablePath} {r : Rejection} :
      p ∈ o.members c g → s' ∈ o → g' ∈ s'.tableGroups → p ∈ o.members c g' →
      r.kind = .tableAlreadyGrouped → r.span = g.token → Refused c o s (.tableGroup g) r

end Item

namespace Step

/-- The tables and fields that a step refers to are there. -/
def Links (c : Config) (x : Stage) : Step → Prop
  | place _ r => r.Links c x.outline
  | _ => True

inductive Refused (c : Config) (x : Stage) : Step → Rejection → Prop
  | declare {d s : Schema} {name : String} {r : Rejection} : s ∈ x.outline →
      s.isNamed name = true → d.isNamed name = true → r.kind = .duplicateSchemaName →
      r.span = d.token → Refused c x (.declare d) r
  | place {name : String} {s : Schema} {rec : Item} {r : Rejection} :
      x.outline.schema? name = some s → rec.Refused c x.outline s r →
        Refused c x (.place name rec) r
  | exhausted {st : Step} {r : Rejection} : ¬ (x.step c st).outline.HasRoom c →
      r.kind = .idSpaceExhausted → Refused c x st r

end Step

namespace Stage

/-- Every step finds what it refers to when its turn comes. -/
def Linked (c : Config) : Stage → List Step → Prop
  | _, [] => True
  | x, st :: steps => st.Links c x ∧ Linked c (x.step c st) steps

/-- Some step is refused when its turn comes, up to which the outline has been sound. -/
def Refuses (c : Config) : Stage → List Step → Rejection → Prop
  | _, [], _ => False
  | x, st :: steps, r =>
    x.outline.Sound c ∧ st.Refused c x r ∨ Refuses c (x.step c st) steps r

variable {c : Config} {x : Stage} {pre post steps : List Step} {r : Rejection}

theorem linked_append :
    x.Linked c (pre ++ post) ↔ x.Linked c pre ∧ (x.run c pre).Linked c post := by
  induction pre generalizing x with
  | nil => simp [Linked, run]
  | cons st pre ih =>
    rw [List.cons_append, Linked, Linked, ih, and_assoc]
    rfl

theorem refuses_append :
    x.Refuses c (pre ++ post) r ↔ x.Refuses c pre r ∨ (x.run c pre).Refuses c post r := by
  induction pre generalizing x with
  | nil => simp [Refuses, run]
  | cons st pre ih =>
    rw [List.cons_append, Refuses, Refuses, ih, or_assoc]
    rfl

/-- A refusal comes at the turn of some step. -/
theorem Refuses.exists_split (h : x.Refuses c steps r) : ∃ pre st post,
    steps = pre ++ st :: post ∧ (x.run c pre).outline.Sound c ∧ st.Refused c (x.run c pre) r := by
  induction steps generalizing x with
  | nil => cases h
  | cons st steps ih =>
    rcases h with ⟨hsound, h⟩ | h
    · exact ⟨[], st, steps, rfl, hsound, h⟩
    · obtain ⟨pre, st', post, rfl, hsound, hr⟩ := ih h
      exact ⟨st :: pre, st', post, rfl, hsound, hr⟩

theorem Linked.of_split {name : String} {rec : Item} (h : x.Linked c steps)
    (hsplit : steps = pre ++ .place name rec :: post) : rec.Links c (x.run c pre).outline := by
  subst hsplit
  exact (linked_append.mp h).2.1

end Stage

end Catalog.Decl
