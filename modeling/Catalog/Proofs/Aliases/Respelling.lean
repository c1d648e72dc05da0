import Catalog.Assembly.Build
import Catalog.Proofs.Aliases.Verdicts
import Catalog.Proofs.Outline.Step
import Mathlib.Data.List.Find
import Mathlib.Data.List.Forall2

/-!
Bundles that name the same schemas by other names of theirs, in records outside of schema
declarations, in endpoints and in members of groups. Where no two schemas share a name, look-ups
come to the same.
-/
namespace Catalog

namespace Decl

/-- Two ways to name a schema or none: the same one, or two names of one declared schema. -/
inductive Bundle.SameSchema (b : Bundle) : Option String → Option String → Prop
  | same (o : Option String) : SameSchema b o o
  | names {s : Schema} {n n' : String} (hs : s ∈ b.schemas) (hn : s.isNamed n = true)
      (hn' : s.isNamed n' = true) : SameSchema b (some n) (some n')

section Respells

variable (b : Bundle)

def Endpoint.Respells (e e' : Endpoint) : Prop :=
  ∃ name, b.SameSchema e.schemaName name ∧ e' = { e with schemaName := name }

def Member.Respells (m m' : Member) : Prop :=
  ∃ name, b.SameSchema m.schemaName name ∧ m' = { m with schemaName := name }

def Ref.Respells (d d' : Ref) : Prop :=
  ∃ es, List.Forall₂ (Endpoint.Respells b) d.endpoints es ∧ d' = { d with endpoints := es }

def TableGroup.Respells (g g' : TableGroup) : Prop :=
  ∃ ms, List.Forall₂ (Member.Respells b) g.tables ms ∧ g' = { g with tables := ms }

/-- What is nested in a schema is in it whatever it says itself. -/
def Schema.Respells (s s' : Schema) : Prop :=
  ∃ rs gs, List.Forall₂ (Ref.Respells b) s.refs rs ∧
    List.Forall₂ (TableGroup.Respells b) s.tableGroups gs ∧
    s' = { s with refs := rs, tableGroups := gs }

/-- A record that is for the same schema, under one of its names. -/
def Bundle.Reroutes {δ : Type} (schemaName : δ → Option String) (move : Option String → δ → δ)
    (d d' : δ) : Prop :=
  ∃ name, b.SameSchema (schemaName d) name ∧ d' = move name d

variable {b}

theorem Endpoint.Respells.refl (e : Endpoint) : e.Respells b e :=
  ⟨_, .same _, rfl⟩

theorem Member.Respells.refl (m : Member) : m.Respells b m :=
  ⟨_, .same _, rfl⟩

theorem Ref.Respells.refl (d : Ref) : d.Respells b d :=
  ⟨_, List.forall₂_same.mpr fun e _ => .refl e, rfl⟩

theorem TableGroup.Respells.refl (g : TableGroup) : g.Respells b g :=
  ⟨_, List.forall₂_same.mpr fun m _ => .refl m, rfl⟩

theorem Schema.Respells.refl (s : Schema) : s.Respells b s :=
  ⟨_, _, List.forall₂_same.mpr fun d _ => .refl d, List.forall₂_same.mpr fun g _ => .refl g, rfl⟩

end Respells

namespace Bundle

/-- One bundle is the other one with schemas named by other names of theirs. -/
structure Respells (b b' : Bundle) : Prop where
  schemas : List.Forall₂ (Schema.Respells b) b.schemas b'.schemas
  tables : List.Forall₂ (b.Reroutes (·.schemaName) fun name d => { d with schemaName := name })
    b.tables b'.tables
  tags : List.Forall₂ (b.Reroutes (·.schemaName) fun name d => { d with schemaName := name })
    b.tags b'.tags
  enums : List.Forall₂ (b.Reroutes (·.schemaName) fun name d => { d with schemaName := name })
    b.enums b'.enums
  refs : List.Forall₂ (Relation.Comp (Ref.Respells b)
      (b.Reroutes (·.schemaName) fun name d => { d with schemaName := name }))
    b.refs b'.refs
  tableGroups : List.Forall₂ (Relation.Comp (TableGroup.Respells b)
      (b.Reroutes (·.schemaName) fun name d => { d with schemaName := name }))
    b.tableGroups b'.tableGroups
  project : b'.project = b.project

theorem Respells.refl (b : Bundle) : b.Respells b where
  schemas := List.forall₂_same.mpr fun s _ => .refl s
  tables := List.forall₂_same.mpr fun _ _ => ⟨_, .same _, rfl⟩
  tags := List.forall₂_same.mpr fun _ _ => ⟨_, .same _, rfl⟩
  enums := List.forall₂_same.mpr fun _ _ => ⟨_, .same _, rfl⟩
  refs := List.forall₂_same.mpr fun d _ => ⟨d, .refl d, _, .same _, rfl⟩
  tableGroups := List.forall₂_same.mpr fun g _ => ⟨g, .refl g, _, .same _, rfl⟩
  project := rfl

/-- All refs, in the order in which they are inserted. -/
def allRefs (b : Bundle) : List Ref :=
  b.schemas.flatMap (·.refs) ++ b.refs

/-- The endpoints of all refs, in the order in which they are numbered. -/
def endpoints (b : Bundle) : List Endpoint :=
  b.allRefs.flatMap (·.endpoints)

end Bundle

end Decl

/-! Look-ups by names of one schema. -/

namespace Database

/-- Names of one declared schema are names of one schema, if of any. -/
def Clear (db : Database) (b : Decl.Bundle) : Prop :=
  ∀ o o', b.SameSchema o o' → ∀ s ∈ db.schemas,
    s.isNamed (o.getD db.config.defaultSchemaName)
      = s.isNamed (o'.getD db.config.defaultSchemaName)

variable {db : Database} {b : Decl.Bundle} (h : db.Clear b) {o o' : Option String}
  (ho : b.SameSchema o o')
include h ho

theorem Clear.findSchema?_eq : db.findSchema? (o'.getD db.config.defaultSchemaName)
    = db.findSchema? (o.getD db.config.defaultSchemaName) := by
  apply List.find?_congr
  intro s hs
  exact (h o o' ho s hs).symm

theorem Clear.locate (table : String) :
    SameVerdict Eq (db.locate o table) (db.locate o' table) := by
  unfold Database.locate
  dsimp only
  rw [h.findSchema?_eq ho]
  cases db.findSchema? (o.getD db.config.defaultSchemaName) with
  | none => exact .error rfl rfl
  | some s => exact .ok rfl

theorem Clear.resolveTable (table : String) (token : Span) :
    SameVerdict Eq (db.resolveTable o table token) (db.resolveTable o' table token) := by
  unfold Database.resolveTable
  have hlocate := h.locate ho table
  generalize db.locate o table = x at hlocate
  generalize db.locate o' table = y at hlocate
  cases hlocate with
  | error hkind _ => exact .error hkind rfl
  | @ok found found' heq =>
    subst heq
    cases found with
    | none => exact .error rfl rfl
    | some found => exact .ok rfl

omit ho

theorem Clear.resolveEndpoint {e e' : Decl.Endpoint} (he : e.Respells b e') (token : Span) :
    SameVerdict (fun v w => v.declared = e ∧ w = { v with declared := e' })
      (db.resolveEndpoint token e) (db.resolveEndpoint token e') := by
  obtain ⟨name, hname, rfl⟩ := he
  apply (h.resolveTable hname _ _).bind
  rintro found _ rfl
  apply (SameVerdict.of_eq rfl fun _ => rfl : SameVerdict Eq _ _).bind
  rintro fields _ rfl
  exact .ok ⟨rfl, rfl⟩

theorem Clear.resolveRef {d d' : Decl.Ref} (hd : d.Respells b d') :
    SameVerdict (fun v w => ∃ e₁ e₂, d'.endpoints = [e₁, e₂] ∧ e₁.token = v.1.declared.token ∧
        e₂.token = v.2.declared.token ∧
        w = ({ v.1 with declared := e₁ }, { v.2 with declared := e₂ }))
      (db.resolveRef d) (db.resolveRef d') := by
  obtain ⟨es, hes, rfl⟩ := hd
  have htoken : ∀ {e e'}, Decl.Endpoint.Respells b e e' → e'.token = e.token := by
    rintro e _ ⟨name, -, rfl⟩
    rfl
  unfold Database.resolveRef
  generalize d.endpoints = ds at hes
  cases hes with
  | nil => exact .error rfl rfl
  | cons h₁ hes =>
    cases hes with
    | nil => exact .error rfl rfl
    | cons h₂ hes =>
      cases hes with
      | cons _ _ => exact .error rfl rfl
      | nil =>
        apply (h.resolveEndpoint h₁ _).bind
        rintro first _ ⟨hfirst, rfl⟩
        apply (h.resolveEndpoint h₂ _).bind
        rintro second _ ⟨hsecond, rfl⟩
        apply SameVerdict.ite (.error rfl rfl)
        apply SameVerdict.ite (.error rfl rfl)
        exact .ok ⟨_, _, rfl, hfirst ▸ htoken h₁, hsecond ▸ htoken h₂, rfl⟩

theorem Clear.resolveMembers {ms ms' : List Decl.Member}
    (hms : List.Forall₂ (Decl.Member.Respells b) ms ms') (token : Span) (found : List Table) :
    SameVerdict Eq (db.resolveMembers token found ms) (db.resolveMembers token found ms') := by
  induction hms generalizing found with
  | nil => exact .ok rfl
  | cons hm _ ih =>
    obtain ⟨name, hname, rfl⟩ := hm
    unfold Database.resolveMembers
    apply (h.resolveTable hname _ _).bind
    rintro ⟨s, t⟩ _ rfl
    exact ih _

end Database

end Catalog
