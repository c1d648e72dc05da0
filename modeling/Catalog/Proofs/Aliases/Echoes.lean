import Catalog.Proofs.Aliases.Respelling
import Catalog.Proofs.Aliases.Restated
import Catalog.Proofs.Drafting

/-!
One construction echoes another one: started where endpoints say something else, it comes to the
same verdict and, if it is not rejected, to the same state but for what endpoints say.
-/
namespace Catalog

open Attempt

/-- From an assembly and from the same one restated, two constructions come to one verdict, and to
the same assembly, restated. -/
def Echoes {α β : Type} (σ : Statement) (R : α → β → Prop) (m : Construction α)
    (m' : Construction β) (a : Assembly) : Prop :=
  SameVerdict (fun p q => R p.1 q.1 ∧ q.2 = p.2.restate σ) (m.outcome a)
    (m'.outcome (a.restate σ))

/-- What is said about the endpoints that are numbered from `n` on is what these are declared with. -/
def Statement.Tells (σ : Statement) (n : Nat) (es : List Decl.Endpoint) : Prop :=
  ∀ k e, es[k]? = some e → ∀ i : Id .endpoint, i.toNat = n + k → σ i = e.toEndpointInfo

variable {σ : Statement} {a : Assembly} {b : Decl.Bundle}

namespace Echoes

variable {α β γ δ : Type} {R : α → β → Prop} {S : γ → δ → Prop} {m n : Construction α}
  {m' n' : Construction β} {f : α → Construction γ} {f' : β → Construction δ}

theorem pure {v : α} {w : β} (h : R v w) : Echoes σ R (pure v) (pure w) a :=
  .ok ⟨h, rfl⟩

theorem imp {R' : α → β → Prop} (h : Echoes σ R m m' a) (hR : ∀ v w, R v w → R' v w) :
    Echoes σ R' m m' a :=
  SameVerdict.imp h fun _ _ hp => ⟨hR _ _ hp.1, hp.2⟩

theorem bind (h : Echoes σ R m m' a) (hf : ∀ v w t, R v w → Echoes σ S (f v) (f' w) t) :
    Echoes σ S (m >>= f) (m' >>= f') a := by
  unfold Echoes
  rw [outcome_bind, outcome_bind]
  apply SameVerdict.bind h
  rintro ⟨v, t⟩ ⟨w, _⟩ ⟨hR, rfl⟩
  exact hf v w t hR

theorem ite {p : Prop} [Decidable p] (h : Echoes σ R m m' a) (h' : Echoes σ R n n' a) :
    Echoes σ R (if p then m else n) (if p then m' else n') a := by
  split
  · exact h
  · exact h'

/-- Going on with the states as they are. -/
theorem state {f : Assembly → Construction γ} {f' : Assembly → Construction δ}
    (h : Echoes σ S (f a) (f' (a.restate σ)) a) :
    Echoes σ S (Attempt.state >>= f) (Attempt.state >>= f') a :=
  h

theorem modify {g : Assembly → Assembly} (h : g (a.restate σ) = (g a).restate σ) :
    Echoes σ Eq (.modify g) (.modify g) a :=
  .ok ⟨rfl, h⟩

end Echoes

namespace Assembly

theorem echoes_insert {δ : Type} {R : δ → δ → Prop} {draft draft' : Database → Drafting δ}
    {commit : Database → δ → Database}
    (hdraft : SameVerdict (fun p q => R p.1 q.1 ∧ q.2 = p.2) ((draft a.database).outcome a.ids)
      ((draft' (a.database.restate σ)).outcome a.ids))
    (hcommit : ∀ v w, R v w →
      commit (a.database.restate σ) w = (commit a.database v).restate σ) :
    Echoes σ R (insert draft commit) (insert draft' commit) a := by
  unfold Echoes
  rw [outcome_insert, outcome_insert]
  apply hdraft.map
  rintro ⟨v, _⟩ ⟨w, ids⟩ ⟨hR, rfl⟩
  exact ⟨hR, congrArg (Assembly.mk · ids) (hcommit v w hR)⟩

/-- Drafts that do not see what endpoints say. -/
theorem echoes_insert_of_draft_eq {δ : Type} {draft draft' : Database → Drafting δ}
    {commit : Database → δ → Database} (hdraft : draft' (a.database.restate σ) = draft a.database)
    (hcommit : ∀ v, commit (a.database.restate σ) v = (commit a.database v).restate σ) :
    Echoes σ Eq (insert draft commit) (insert draft' commit) a := by
  apply echoes_insert
  · rw [hdraft]
    exact .of_eq rfl fun _ => ⟨rfl, rfl⟩
  · rintro v _ rfl
    exact hcommit v

/-! Schemas. -/

/-- A new schema has no refs that could be restated. -/
theorem echoes_pushSchema (info : SchemaInfo) (token : Span) :
    Echoes σ Eq (pushSchema info token) (pushSchema info token) a := by
  have hany : ((a.database.restate σ).schemas.any fun s => s.collides info)
      = a.database.schemas.any fun s => s.collides info := List.any_map
  have hpush : Echoes σ (fun s s' => s = s' ∧ s.restate σ = s) (pushSchema info token)
      (pushSchema info token) a := by
    apply echoes_insert
    · rw [hany, outcome_bind]
      apply SameVerdict.bind (R := Eq) (.of_eq rfl fun _ => rfl)
      rintro ⟨i, ids⟩ _ rfl
      split
      · exact .error rfl rfl
      · exact .ok ⟨⟨rfl, rfl⟩, rfl⟩
    · rintro s _ ⟨rfl, hs⟩
      rw [Database.restate_addSchema, hs]
  exact hpush.imp fun _ _ h => h.1

theorem echoes_getOrCreateSchema (name : String) :
    Echoes σ Eq (getOrCreateSchema name) (getOrCreateSchema name) a := by
  have hcreate : ∀ (a : Assembly) (info : SchemaInfo), Echoes σ Eq
      (do let s ← pushSchema info {}; pure s.id) (do let s ← pushSchema info {}; pure s.id) a := by
    intro a info
    apply (echoes_pushSchema info {}).bind
    rintro s _ t rfl
    exact .pure rfl
  have hmark : ∀ a : Assembly, Echoes σ Eq markDefault markDefault a := fun a => .modify rfl
  unfold getOrCreateSchema
  apply Echoes.state
  dsimp only [restate]
  rw [Database.findSchema?_restate]
  cases a.database.findSchema? name with
  | none => exact .ite ((hmark a).bind fun _ _ t _ => hcreate t _) (hcreate a _)
  | some s => exact .ite ((hmark a).bind fun _ _ _ _ => .pure rfl) (.pure rfl)

/-- Routing by two names of one schema, where that schema is there. -/
theorem echoes_route (h : a.database.Clear b) {o o' : Option String} (ho : b.SameSchema o o')
    (hfound : o = o' ∨ (a.database.findSchema? (o.getD a.database.config.defaultSchemaName)).isSome) :
    Echoes σ Eq (route o) (route o') a := by
  unfold route
  apply Echoes.state
  have hecho := echoes_getOrCreateSchema (σ := σ) (a := a)
    (o'.getD a.database.config.defaultSchemaName)
  have heq : (getOrCreateSchema (o.getD a.database.config.defaultSchemaName)).outcome a
      = (getOrCreateSchema (o'.getD a.database.config.defaultSchemaName)).outcome a := by
    rcases hfound with rfl | hsome
    · rfl
    · obtain ⟨s, hs⟩ := Option.isSome_iff_exists.mp hsome
      unfold getOrCreateSchema
      rw [outcome_state_bind, outcome_state_bind]
      dsimp only
      rw [h.findSchema?_eq ho, hs]
  unfold Echoes at hecho ⊢
  rw [heq]
  exact hecho

theorem echoes_markIfDefault (id : Id .schema) :
    Echoes σ Eq (markIfDefault id) (markIfDefault id) a := by
  apply Echoes.modify
  have hschema : (a.restate σ).database.schema? id = (a.database.schema? id).map (·.restate σ) :=
    a.database.schema?_restate σ id
  rw [hschema]
  cases hs : a.database.schema? id with
  | none => rfl
  | some s =>
    have hempty : (s.restate σ).isEmpty = s.isEmpty := by
      simp only [Schema.isEmpty, Schema.restate, List.isEmpty_map]
    dsimp only [Option.map_some]
    rw [hempty]
    exact Eq.symm (apply_ite (Assembly.restate σ) _ _ _)

/-! Records. -/

variable (id : Id .schema)

theorem echoes_pushTable (d : Decl.Table) : Echoes σ Eq (pushTable id d) (pushTable id d) a := by
  apply echoes_insert_of_draft_eq
  · simp only [checkName_restate]
  · exact fun t => (Database.restate_addTable σ _ id t).symm

theorem echoes_pushTag (d : Decl.Tag) : Echoes σ Eq (pushTag id d) (pushTag id d) a := by
  apply echoes_insert_of_draft_eq
  · simp only [checkName_restate]
  · exact fun t => (Database.restate_addTag σ _ id t).symm

theorem echoes_pushEnum (d : Decl.Enum) : Echoes σ Eq (pushEnum id d) (pushEnum id d) a := by
  apply echoes_insert_of_draft_eq
  · simp only [checkName_restate]
  · exact fun e => (Database.restate_addEnum σ _ id e).symm

/-- What is drafted from endpoints declared otherwise differs in what it says about itself. -/
theorem draftRef_redeclared (d : Decl.Ref) (es : List Decl.Endpoint) (first second : Resolved)
    {e₁ e₂ : Decl.Endpoint} (h₁ : e₁.token = first.declared.token)
    (h₂ : e₂.token = second.declared.token) :
    draftRef { d with endpoints := es } { first with declared := e₁ }
        { second with declared := e₂ }
      = (fun r => { r with
          first := { r.first with toEndpointInfo := e₁.toEndpointInfo }
          second := { r.second with toEndpointInfo := e₂.toEndpointInfo } })
        <$> draftRef d first second := by
  unfold draftRef draftEndpoint
  simp only [map_bind, map_pure, bind_assoc, pure_bind, h₁, h₂]

theorem echoes_draftRef (d : Decl.Ref) (es : List Decl.Endpoint) (first second : Resolved)
    {e₁ e₂ : Decl.Endpoint} (h₁ : e₁.token = first.declared.token)
    (h₂ : e₂.token = second.declared.token) (ids : Allocator)
    (hσ : σ.Tells (ids.next .endpoint) [e₁, e₂]) :
    SameVerdict (fun p q => q.1 = p.1.restate σ ∧ q.2 = p.2)
      ((draftRef d first second).outcome ids)
      ((draftRef { d with endpoints := es } { first with declared := e₁ }
        { second with declared := e₂ }).outcome ids) := by
  rw [draftRef_redeclared d es first second h₁ h₂, outcome_map]
  have hdraws := draws_ref (Q := fun _ => True) d first second ids
  unfold outcome
  rcases hrun : (draftRef d first second).run ids with ⟨r | r, ids'⟩
  · exact .error rfl rfl
  · obtain ⟨-, -, -, -, hnumbers⟩ := hdraws.of_run_ok hrun
    have hids : [r.first.id.toNat, r.second.id.toNat]
        = [ids.next .endpoint, ids.next .endpoint + 1] := hnumbers .endpoint
    injection hids with hfirst hsecond
    injection hsecond with hsecond
    have htells₁ := hσ 0 e₁ rfl r.first.id hfirst
    have htells₂ := hσ 1 e₂ rfl r.second.id hsecond
    refine .ok ⟨?_, rfl⟩
    simp only [Ref.restate, Endpoint.restate, htells₁, htells₂]

theorem echoes_pushRef (h : a.database.Clear b) {d d' : Decl.Ref} (hd : d.Respells b d')
    (hσ : σ.Tells (a.ids.next .endpoint) d'.endpoints) :
    Echoes σ (fun r r' => r' = r.restate σ) (pushRef id d) (pushRef id d') a := by
  apply echoes_insert
  · rw [Database.resolveRef_restate, outcome_bind, outcome_bind, outcome_ofExcept, outcome_ofExcept]
    apply SameVerdict.bind (R := fun p q => ∃ e₁ e₂, d'.endpoints = [e₁, e₂] ∧
      e₁.token = p.1.1.declared.token ∧ e₂.token = p.1.2.declared.token ∧
      q.1 = ({ p.1.1 with declared := e₁ }, { p.1.2 with declared := e₂ }) ∧ p.2 = a.ids ∧
      q.2 = a.ids)
    · apply (h.resolveRef hd).map
      rintro v w ⟨e₁, e₂, hes, h₁, h₂, hw⟩
      exact ⟨e₁, e₂, hes, h₁, h₂, hw, rfl, rfl⟩
    · rintro ⟨⟨first, second⟩, ids⟩ ⟨_, ids'⟩ ⟨e₁, e₂, hes, h₁, h₂, rfl, rfl, rfl⟩
      obtain ⟨es, -, rfl⟩ := hd
      dsimp only at hes hσ ⊢
      subst hes
      rw [outcome_bind, outcome_bind]
      apply (echoes_draftRef d _ first second h₁ h₂ _ hσ).bind
      rintro ⟨r, ids⟩ ⟨r', ids'⟩ ⟨hr, hids⟩
      dsimp only at hr hids ⊢
      subst hr hids
      rw [outcome_bind, outcome_bind, checkRef_restate]
      apply SameVerdict.bind (R := Eq) (.of_eq rfl fun _ => rfl)
      rintro _ _ rfl
      exact .ok ⟨rfl, rfl⟩
  · rintro r _ rfl
    exact (Database.restate_addRef σ _ id r).symm

theorem echoes_pushTableGroup (h : a.database.Clear b) {g g' : Decl.TableGroup}
    (hg : g.Respells b g') :
    Echoes σ Eq (pushTableGroup id g) (pushTableGroup id g') a := by
  obtain ⟨ms, hms, rfl⟩ := hg
  apply echoes_insert
  · simp only [Database.resolveMembers_restate, checkName_restate, checkUngrouped_restate]
    rw [outcome_bind, outcome_bind, outcome_ofExcept, outcome_ofExcept]
    apply SameVerdict.bind (R := Eq)
    · apply (h.resolveMembers hms g.token []).map
      rintro ts _ rfl
      rfl
    · rintro ⟨ts, ids⟩ _ rfl
      exact .of_eq rfl fun _ => ⟨rfl, rfl⟩
  · rintro g _ rfl
    exact (Database.restate_addTableGroup σ _ id g).symm

theorem echoes_bindTags : Echoes σ Eq bindTags bindTags a := by
  have hinsert : Echoes σ (fun ss ss' => ss' = ss.map (·.restate σ))
      (insert (fun db => Attempt.mapEach Schema.bindTags db.schemas)
        fun db schemas => { db with schemas })
      (insert (fun db => Attempt.mapEach Schema.bindTags db.schemas)
        fun db schemas => { db with schemas }) a := by
    apply echoes_insert
    · have hdraft := Attempt.mapEach_map (Schema.bindTags_restate σ) a.database.schemas
      change SameVerdict _ _ ((Attempt.mapEach Schema.bindTags
        (a.database.schemas.map (·.restate σ))).outcome a.ids)
      rw [hdraft, outcome_map]
      exact .of_map rfl fun _ => ⟨rfl, rfl⟩
    · rintro ss _ rfl
      rfl
  exact hinsert.bind fun _ _ _ _ => .pure rfl

theorem echoes_bindRemaining : Echoes σ Eq bindRemaining bindRemaining a := by
  have hbinding : (a.restate σ).database.config.enumBinding = a.database.config.enumBinding := rfl
  apply Echoes.modify
  rw [hbinding]
  cases a.database.config.enumBinding with
  | onInsert => rfl
  | afterConstruction =>
    exact congrArg (Assembly.mk · a.ids) (a.database.restate_bindEnums σ).symm

end Assembly

end Catalog
