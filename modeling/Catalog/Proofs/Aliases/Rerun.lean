import Catalog.Proofs.Aliases.Retracing

/-!
A bundle that names schemas by other names of theirs is inserted as the bundle that it comes from.
While declared schemas are added, no other schemas are known; after that, each name of a declared
schema finds it, so a record gets to its schema by either name.
-/
namespace Catalog

/-- Records are inserted into a schema, while endpoints are left to be numbered. -/
def Within (name : String) (id : Id .schema) (tagged : Bool) (I : List SchemaInfo → Prop)
    (b : Decl.Bundle) (left : List Decl.Endpoint) (x : Decl.Stage) (a : Assembly) : Prop :=
  Into name id tagged x a ∧ x.At I b left

/-- Declared schemas are added, up to those that are left. -/
def Declaring (b b' : Decl.Bundle) (ss : List Decl.Schema) (x : Decl.Stage) (_ : Assembly) : Prop :=
  x.tagged = false ∧ x.At (b.Lacks ss) b' (b'.endpointsFrom ss)

/-- All declared schemas are known, and endpoints are left to be numbered. -/
def Routing (b b' : Decl.Bundle) (tagged : Bool) (left : List Decl.Endpoint) (x : Decl.Stage)
    (_ : Assembly) : Prop :=
  x.tagged = tagged ∧ x.At (b.infos ⊆ ·) b' left

section

variable {c : Config} {project : DatabaseInfo} {σ : Statement} {b b' : Decl.Bundle} {name : String}
  {id : Id .schema} {tagged : Bool} {I : List SchemaInfo → Prop} {left : List Decl.Endpoint}
  (apart : b.schemas.Pairwise Decl.Schema.Apart) (hσ : σ.Tells c.idBase.toNat b'.endpoints)

section Records

variable (hI : ∀ known, I known → known ⊆ b.infos ∨ b.infos ⊆ known)
include apart hσ hI

theorem retraces_push {α : Type} {S : α → α → Prop} {m m' : Construction α} {r : Decl.Item}
    {es : List Decl.Endpoint} (hlen : r.extent .endpoint = es.length)
    (hm : Carries c project (Into name id tagged) m [.place name r] fun _ => Into name id tagged)
    (hecho : ∀ a, a.database.Clear b → σ.Tells (a.ids.next .endpoint) es → Echoes σ S m m' a) :
    Retraces c project σ (Within name id tagged I b' (es ++ left)) m m'
      fun _ _ => Within name id tagged I b' left := by
  apply hm.retraces_const
  · intro x a h _ hx
    exact hecho a (h.mirrors.clear apart (hI _ hx.1)) (hσ.next h.mirrors hx.2)
  · rintro x a h ⟨hid, -⟩ ⟨hinfos, hawaits⟩
    obtain ⟨s, d, -, -, -, hd, -⟩ := h.mirrors.schema?_of_denotes hid
    have hextent := Decl.Outline.extent_place (r := r) h.mirrors.sound.apart hd .endpoint
    exact ⟨(x.infos_place name r (c := c)).symm ▸ hinfos, hawaits.numbered (hlen ▸ hextent)⟩

/-- Records other than refs leave all endpoints to be numbered. -/
theorem retraces_pushPlain {α : Type} {m m' : Construction α} {r : Decl.Item}
    (hextent : r.extent .endpoint = 0)
    (hm : Carries c project (Into name id tagged) m [.place name r] fun _ => Into name id tagged)
    (hecho : ∀ a, a.database.Clear b → Echoes σ Eq m m' a) :
    Retraces c project σ (Within name id tagged I b' left) m m'
      fun _ _ => Within name id tagged I b' left :=
  retraces_push apart hσ hI (hextent.trans List.length_nil.symm) hm fun a h _ => hecho a h

theorem retraces_pushTable (d : Decl.Table) :
    Retraces c project σ (Within name id false I b' left) (Assembly.pushTable id d)
      (Assembly.pushTable id d) fun _ _ => Within name id false I b' left :=
  retraces_pushPlain apart hσ hI (r := .table d) rfl (carries_pushTable d) fun _ _ =>
    Assembly.echoes_pushTable id d

theorem retraces_pushTag (d : Decl.Tag) :
    Retraces c project σ (Within name id tagged I b' left) (Assembly.pushTag id d)
      (Assembly.pushTag id d) fun _ _ => Within name id tagged I b' left :=
  retraces_pushPlain apart hσ hI (r := .tag d) rfl (carries_pushTag d) fun _ _ =>
    Assembly.echoes_pushTag id d

theorem retraces_pushEnum (d : Decl.Enum) :
    Retraces c project σ (Within name id tagged I b' left) (Assembly.pushEnum id d)
      (Assembly.pushEnum id d) fun _ _ => Within name id tagged I b' left :=
  retraces_pushPlain apart hσ hI (r := .enum d) rfl (carries_pushEnum d) fun _ _ =>
    Assembly.echoes_pushEnum id d

theorem retraces_pushRef {d d' : Decl.Ref} (hd : d.Respells b d') :
    Retraces c project σ (Within name id tagged I b' (d'.endpoints ++ left))
      (Assembly.pushRef id d) (Assembly.pushRef id d')
      fun _ _ => Within name id tagged I b' left := by
  have hlen : (Decl.Item.ref d).extent .endpoint = d'.endpoints.length := by
    obtain ⟨es, hes, rfl⟩ := hd
    exact hes.length_eq
  exact retraces_push apart hσ hI hlen (carries_pushRef d) fun a h htells =>
    Assembly.echoes_pushRef id h hd htells

theorem retraces_pushTableGroup {g g' : Decl.TableGroup} (hg : g.Respells b g') :
    Retraces c project σ (Within name id tagged I b' left) (Assembly.pushTableGroup id g)
      (Assembly.pushTableGroup id g') fun _ _ => Within name id tagged I b' left :=
  retraces_pushPlain apart hσ hI (r := .tableGroup g) rfl (carries_pushTableGroup g) fun _ h =>
    Assembly.echoes_pushTableGroup id h hg

theorem retraces_process {d d' : Decl.Schema} (hd : d.Respells b d') :
    Retraces c project σ (Within name id false I b' (d'.refs.flatMap (·.endpoints) ++ left))
      (Assembly.process id d) (Assembly.process id d')
      fun _ _ => Within name id false I b' left := by
  obtain ⟨rs, gs, hrs, hgs, rfl⟩ := hd
  have same : ∀ {δ : Type} (l : List δ), List.Forall₂ Eq l l := fun l => List.forall₂_refl l
  unfold Assembly.process
  dsimp only
  apply Retraces.bind
  · apply Retraces.forEach_same (same d.tables)
    rintro t _ rfl
    exact retraces_pushTable apart hσ hI t
  intro _ _
  apply Retraces.bind
  · apply Retraces.forEach_same (same d.tags)
    rintro t _ rfl
    exact retraces_pushTag apart hσ hI t
  intro _ _
  apply Retraces.bind
  · apply Retraces.forEach_same (same d.enums)
    rintro e _ rfl
    exact retraces_pushEnum apart hσ hI e
  intro _ _
  apply Retraces.bind
  · apply Retraces.forEach hrs
      (P := fun rs => Within name id false I b' (rs.flatMap (·.endpoints) ++ left))
    intro r r' rs hr
    rw [List.flatMap_cons, List.append_assoc]
    exact retraces_pushRef apart hσ hI hr
  intro _ _
  apply Retraces.forEach_same hgs
  intro g g' hg
  exact retraces_pushTableGroup apart hσ hI hg

end Records

/-! Declared schemas. -/

include apart hσ in
theorem retraces_declareSchema {d d' : Decl.Schema} (hd : d.Respells b d') (ss : List Decl.Schema) :
    Retraces c project σ (Declaring b b' (d' :: ss)) (Assembly.declareSchema d)
      (Assembly.declareSchema d') fun _ _ => Declaring b b' ss := by
  have hI : ∀ known, b.Lacks ss known → known ⊆ b.infos ∨ b.infos ⊆ known := by
    intro known heq
    exact .inl (heq ▸ List.subset_append_left _ _)
  obtain ⟨hinfo, htoken⟩ : d'.toSchemaInfo = d.toSchemaInfo ∧ d'.token = d.token := by
    obtain ⟨rs, gs, -, -, rfl⟩ := hd
    exact ⟨rfl, rfl⟩
  have hdeclare : Retraces c project σ (Declaring b b' (d' :: ss))
      (Assembly.pushSchema d.toSchemaInfo d.token) (Assembly.pushSchema d.toSchemaInfo d.token)
      fun s s' x a => s = s' ∧
        Within d.name s.id false (b.Lacks ss) b' (b'.endpointsFrom (d' :: ss)) x a := by
    apply (carries_pushSchema d).retraces
    · intro x a _ _ _
      exact Assembly.echoes_pushSchema _ _
    · rintro x a - - ⟨hinfos, hawaits⟩
      refine ⟨?_, hawaits.of_extent_eq (x.extent_declare d (c := c))⟩
      change b.Lacks ss (x.step c (.declare d)).infos
      rw [Decl.Bundle.Lacks, x.infos_declare, List.append_assoc, ← hinfo]
      exact hinfos
  have hclose : ∀ i, Retraces c project σ
      (Within d.name i false (b.Lacks ss) b' (b'.endpointsFrom ss))
      (Assembly.markIfDefault i) (Assembly.markIfDefault i) fun _ _ => Declaring b b' ss := by
    intro i
    apply carries_markIfDefault.retraces_const
    · intro x a _ _ _
      exact Assembly.echoes_markIfDefault i
    · exact fun _ _ _ _ h => h
  unfold Assembly.declareSchema
  rw [hinfo, htoken]
  apply hdeclare.bind_eq
  intro s
  have hprocess : Retraces c project σ
      (Within d.name s.id false (b.Lacks ss) b' (b'.endpointsFrom (d' :: ss)))
      (Assembly.process s.id d) (Assembly.process s.id d')
      fun _ _ => Within d.name s.id false (b.Lacks ss) b' (b'.endpointsFrom ss) := by
    have hsplit : b'.endpointsFrom (d' :: ss)
        = d'.refs.flatMap (·.endpoints) ++ b'.endpointsFrom ss := by
      simp [Decl.Bundle.endpointsFrom]
    rw [hsplit]
    exact retraces_process apart hσ hI hd
  exact hprocess.bind fun _ _ => hclose s.id

/-! Records outside of schema declarations. -/

include apart in
theorem retraces_route {o o' : Option String} (ho : b.SameSchema o o') :
    Retraces c project σ (Routing b b' tagged left) (Assembly.route o) (Assembly.route o')
      fun i i' x a => i = i' ∧
        Within (o.getD c.defaultSchemaName) i tagged (b.infos ⊆ ·) b' left x a := by
  apply (carries_route o).retraces
  · intro x a h _ hx
    apply Assembly.echoes_route (h.mirrors.clear apart (.inr hx.1)) ho
    cases ho with
    | same o => exact .inl rfl
    | @names d n n' hd hn hn' =>
      right
      obtain ⟨s, hs, hinfo⟩ := List.mem_map.mp (hx.1 (List.mem_map_of_mem hd))
      obtain ⟨s', hs', hm⟩ := exists_left_of_paired h.mirrors.schemas hs
      apply List.find?_isSome.mpr
      exact ⟨s', hs', (hm.isNamed n).trans (hinfo ▸ hn)⟩
  · rintro x a - - ⟨hinfos, hawaits⟩
    exact ⟨List.Subset.trans hinfos (x.infos_subset_arrive _),
      hawaits.of_extent_eq (x.extent_arrive _)⟩

include apart in
theorem retraces_routed {δ ε : Type} {schemaName : δ → Option String}
    {push : Id .schema → δ → Construction ε} {d d' : δ} {left' : List Decl.Endpoint}
    (ho : b.SameSchema (schemaName d) (schemaName d'))
    (hpush : ∀ name id, Retraces c project σ (Within name id tagged (b.infos ⊆ ·) b' left)
      (push id d) (push id d') fun _ _ => Within name id tagged (b.infos ⊆ ·) b' left') :
    Retraces c project σ (Routing b b' tagged left) (Assembly.routed schemaName push d)
      (Assembly.routed schemaName push d') fun _ _ => Routing b b' tagged left' := by
  unfold Assembly.routed
  apply (retraces_route apart ho).bind_eq
  intro i
  apply (hpush _ i).imp (fun _ _ h => h)
  exact fun _ _ _ _ h => ⟨h.1.2, h.2⟩

theorem retraces_bindTags :
    Retraces c project σ (Routing b b' false left) Assembly.bindTags Assembly.bindTags
      fun _ _ => Routing b b' true left := by
  apply carries_bindTags.retraces_const
  · exact fun _ _ _ _ _ => Assembly.echoes_bindTags
  · rintro x a - - ⟨hinfos, hawaits⟩
    exact ⟨(x.infos_implyTags (c := c)).symm ▸ hinfos,
      hawaits.of_extent_eq (x.extent_implyTags (c := c))⟩

include apart hσ in
theorem retraces_addBundle (h : b.Respells b') :
    Retraces c project σ (Declaring b b' b'.schemas) (Assembly.addBundle b)
      (Assembly.addBundle b') fun _ _ x _ => x.Awaits b' [] := by
  have hI : ∀ known, b.infos ⊆ known → known ⊆ b.infos ∨ b.infos ⊆ known := fun _ h => .inr h
  -- From here on nothing is lacking, so each name of a declared schema finds it.
  have hdeclared : ∀ x a, Declaring b b' [] x a →
      Routing b b' false (b'.refs.flatMap (·.endpoints)) x a := by
    rintro x a ⟨htagged, hlacks, hawaits⟩
    refine ⟨htagged, ?_, hawaits⟩
    rw [Decl.Bundle.Lacks, List.map_nil, List.append_nil] at hlacks
    exact hlacks ▸ List.Subset.refl _
  unfold Assembly.addBundle
  apply Retraces.bind (Q := fun _ _ => Routing b b' false (b'.refs.flatMap (·.endpoints)))
  · apply Retraces.imp _ (fun _ _ h => h) fun _ _ => hdeclared
    apply Retraces.forEach (P := Declaring b b') h.schemas
    intro d d' ss hd
    exact retraces_declareSchema apart hσ hd ss
  intro _ _
  apply Retraces.bind
  · apply Retraces.forEach_same h.tables
    rintro d _ ⟨name, ho, rfl⟩
    exact retraces_routed apart ho fun _ _ => retraces_pushTable apart hσ hI d
  intro _ _
  apply Retraces.bind
  · apply Retraces.forEach_same h.tags
    rintro d _ ⟨name, ho, rfl⟩
    exact retraces_routed apart ho fun _ _ => retraces_pushTag apart hσ hI d
  intro _ _
  apply Retraces.bind retraces_bindTags
  intro _ _
  apply Retraces.bind
  · apply Retraces.forEach (P := fun rs => Routing b b' true (rs.flatMap (·.endpoints))) h.refs
    rintro d _ rs ⟨d', hd, name, ho, rfl⟩
    have hname : d'.schemaName = d.schemaName := by
      obtain ⟨es, -, rfl⟩ := hd
      rfl
    change Retraces c project σ (Routing b b' true (d'.endpoints ++ rs.flatMap (·.endpoints))) _ _ _
    apply retraces_routed apart (hname ▸ ho)
    intro n i
    change Retraces c project σ _ (Assembly.pushRef i d) (Assembly.pushRef i d') _
    exact retraces_pushRef apart hσ hI hd
  intro _ _
  apply Retraces.bind
  · apply Retraces.forEach_same h.enums
    rintro d _ ⟨name, ho, rfl⟩
    exact retraces_routed apart ho fun _ _ => retraces_pushEnum apart hσ hI d
  intro _ _
  apply Retraces.bind
  · apply Retraces.forEach_same h.tableGroups
    rintro g _ ⟨g', hg, name, ho, rfl⟩
    have hname : g'.schemaName = g.schemaName := by
      obtain ⟨ms, -, rfl⟩ := hg
      rfl
    apply retraces_routed apart (hname ▸ ho)
    intro n i
    change Retraces c project σ _ (Assembly.pushTableGroup i g) (Assembly.pushTableGroup i g') _
    exact retraces_pushTableGroup apart hσ hI hg
  intro _ _
  have hremaining : Retraces c project σ (fun x _ => True ∧ x.Awaits b' [])
      Assembly.bindRemaining Assembly.bindRemaining fun _ _ x _ => True ∧ x.Awaits b' [] :=
    carries_bindRemaining.retraces_const (fun _ _ _ _ _ => Assembly.echoes_bindRemaining)
      fun _ _ _ _ h => h
  exact hremaining.imp (fun _ _ h => ⟨trivial, h.2.2⟩) fun _ _ _ _ h => h.2

end

end Catalog
