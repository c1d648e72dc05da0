import Catalog.Proofs.Change

/-!
Each insertion makes one entity part of a schema that exists, or is rejected and only spends
identifiers.
-/
namespace Catalog.Assembly

variable {a : Assembly} {s : Schema} {id : Id .schema}

/-- A draft that ends with the check of its name. -/
theorem draws_named {δ ε : Type} {draft : Drafting δ} {need : Kind → Nat} {db : Database}
    {sort : ChildSort} {R : δ → (Kind → List Nat) → Prop} {S : ε → (Kind → List Nat) → Prop}
    {Q : Rejection → Prop} {f : δ → ε} {nameOf : δ → String} {tokenOf : δ → Span}
    (hs : db.schema? id = some s) (hdraft : Draws draft need R Q)
    (hS : ∀ v ns, R v ns → nameOf v ∉ s.names sort → S (f v) ns) :
    Draws (do
        let v ← draft
        checkName db id sort (nameOf v) (tokenOf v)
        pure (f v))
      need S fun _ => True := by
  apply (hdraft.imp (fun _ _ h => h) fun _ _ => trivial).checked _ hS
  intro v ns _
  exact (draws_checkName_of_schema? hs sort (nameOf v) (tokenOf v)).imp (fun _ _ h => h)
    fun _ _ => trivial

theorem meets_pushTable (hs : a.database.schema? id = some s) (d : Decl.Table) :
    (pushTable id d).Meets a (fun t b => a.Inserts s (.table t) b) (fun _ b => a.Spent b) := by
  apply meets_insert_of_fits Entity.table hs (draws_named hs (draws_table d) fun _ _ ht hnew =>
    And.intro ht hnew)
  · rintro t ns ⟨⟨hdecl, hnumbers, hunlinked, hnodup⟩, hnew⟩
    have hnames : (t.fields.map (·.name)).Nodup := by
      rw [Table.fieldNames_of_declared hdecl]
      exact hnodup
    exact ⟨.of_label (by rintro (_ | _) <;> rfl) hnew hnames hunlinked, hnumbers⟩
  · exact fun _ => rfl

theorem meets_pushTag (hs : a.database.schema? id = some s) (d : Decl.Tag) :
    (pushTag id d).Meets a (fun t b => a.Inserts s (.tag t) b) (fun _ b => a.Spent b) := by
  apply meets_insert_of_fits (Q := fun _ => True) Entity.tag hs
    (R := fun t ns => (t.name ∉ s.names .tag ∧ t.tables = []) ∧ ∀ k, t.id.number k = ns k)
  · apply draws_named hs (draws_issue .tag (Q := fun _ => True))
    intro i ns hns hnew
    exact ⟨⟨hnew, rfl⟩, hns⟩
  · rintro t ns ⟨⟨hnew, hnone⟩, hnumbers⟩
    exact ⟨.of_label (by rintro (_ | _) <;> rfl) hnew trivial hnone, hnumbers⟩
  · exact fun _ => rfl

theorem meets_pushEnum (hs : a.database.schema? id = some s) (d : Decl.Enum) :
    (pushEnum id d).Meets a (fun e b => a.Inserts s (.enum e) b) (fun _ b => a.Spent b) := by
  apply meets_insert_of_fits Entity.enum hs (draws_named hs (draws_enum d) fun _ _ he hnew =>
    And.intro he hnew)
  · rintro e ns ⟨⟨hdecl, hnumbers, hfields, hnodup⟩, hnew⟩
    have hnames : (e.values.map (·.name)).Nodup := by
      have hvalues := congrArg (fun d => d.values.map (·.name)) hdecl
      simp only [Enum.declared, List.map_map] at hvalues
      exact hvalues ▸ hnodup
    exact ⟨.of_label (by rintro (_ | _) <;> rfl) hnew hnames hfields, hnumbers⟩
  · exact fun _ => rfl

theorem meets_pushRef (hs : a.database.schema? id = some s) (d : Decl.Ref) :
    (pushRef id d).Meets a (fun r b => a.Inserts s (.ref r) b) (fun _ b => a.Spent b) := by
  apply meets_insert_of_fits (Q := fun _ => True) Entity.ref hs
    (n := fun k => if k = .ref then 1 else if k = .endpoint then 2 else 0)
    (R := fun r ns => (r.ResolvedIn a.database ∧ ∀ other ∈ s.refs, r.connectsSame other = false) ∧
      ∀ k, r.numbers k = ns k)
  · cases hres : a.database.resolveRef d with
    | error rej => exact draws_of_error trivial
    | ok ends =>
      apply draws_of_ok
      apply (draws_ref d ends.1 ends.2).checked
      · intro r _ _
        exact (draws_checkRef_of_schema? hs r).imp (fun _ _ h => h) fun _ _ => trivial
      · rintro r ns ⟨⟨hinfo, htoken⟩, hfirst, hsecond, hnumbers⟩ hne
        exact ⟨⟨⟨d, ends.1, ends.2, hres, hinfo, htoken, hfirst, hsecond⟩, hne⟩, hnumbers⟩
  · rintro r ns ⟨⟨hresolved, hne⟩, hnumbers⟩
    have hfits : (Entity.ref r).Fits a.database s := by
      refine ⟨?_, trivial, hresolved, ?_⟩
      · rintro (_ | _) name hname <;> cases hname
      · rintro _ ⟨⟩
        exact hne
    exact ⟨hfits, hnumbers⟩
  · exact fun _ => rfl

theorem meets_pushTableGroup (hs : a.database.schema? id = some s) (d : Decl.TableGroup) :
    (pushTableGroup id d).Meets a (fun g b => a.Inserts s (.tableGroup g) b)
      (fun _ b => a.Spent b) := by
  apply meets_insert_of_fits (Q := fun _ => True) Entity.tableGroup hs
    (n := fun k => (if k = .tableGroup then 1 else 0) + (0 + 0))
    (R := fun g ns => (g.name ∉ s.names .tableGroup ∧ g.ResolvedIn a.database) ∧
      ∀ k, g.id.number k = ns k)
  · cases hres : a.database.resolveMembers d.token [] d.tables with
    | error rej => exact draws_of_error trivial
    | ok ts =>
      apply draws_of_ok
      apply Draws.bind (draws_issue .tableGroup)
      intro i ns hns
      apply Draws.bind ((draws_checkName_of_schema? hs .tableGroup d.name d.token).imp
        (fun _ _ h => h) fun _ _ => trivial)
      rintro - ns' ⟨hnew, hns'⟩
      apply Draws.map ((draws_checkUngrouped_of_grouped ts d.token).imp (fun _ _ h => h)
        fun _ _ => trivial)
      rintro - ns'' ⟨hfree, hns''⟩
      refine ⟨⟨hnew, d, ts, hres, rfl, rfl, rfl, hfree⟩, ?_⟩
      intro k
      simp only [hns, hns', hns'', List.append_nil]
  · rintro g ns ⟨⟨hnew, hresolved⟩, hnumbers⟩
    exact ⟨.of_label (by rintro (_ | _) <;> rfl) hnew trivial hresolved, hnumbers⟩
  · exact fun _ => rfl

/-- A schema is added if it shares no name with those that exist. -/
theorem meets_pushSchema (info : SchemaInfo) (token : Span) :
    (pushSchema info token).Meets a
      (fun s b => a.Opens s b ∧ s.toSchemaInfo = info ∧ s.token = token)
      (fun _ b => a.Spent b) := by
  have hdraws : Draws
      (do
        let id ← issue .schema
        if a.database.schemas.any fun s => s.collides info then
          .reject { cause := .duplicateSchema info.name, span := token }
        else pure ({ toSchemaInfo := info, id, token } : Schema))
      (fun k => (if k = .schema then 1 else 0) + 0)
      (fun s ns => s = { toSchemaInfo := info, id := s.id, token := token } ∧
        (∀ t ∈ a.database.schemas, t.collides info = false) ∧ ∀ k, s.id.number k = ns k)
      (fun _ => True) := by
    apply Draws.bind (draws_issue .schema)
    intro i ns hns
    split
    · exact draws_reject trivial
    · rename_i hany
      rw [Bool.not_eq_true, List.any_eq_false] at hany
      apply draws_pure
      refine ⟨rfl, ?_, ?_⟩
      · intro t ht
        exact Bool.not_eq_true _ ▸ hany t ht
      · intro k
        exact (hns k).trans (List.append_nil _).symm
  apply Assembly.meets_insert
  apply (hdraws a.ids).mono
  · rintro s ids ⟨hdrew, heq, hapart, hnumbers⟩
    rw [heq]
    exact ⟨⟨rfl, hapart, ⟨_, hdrew, hnumbers⟩, rfl⟩, rfl, rfl⟩
  · rintro r ids ⟨hle, -⟩
    exact ⟨rfl, hle⟩

end Catalog.Assembly
