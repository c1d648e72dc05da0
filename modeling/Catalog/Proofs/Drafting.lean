import Catalog.Assembly.Enum
import Catalog.Assembly.Ref
import Catalog.Assembly.Table
import Catalog.Assembly.TableGroup
import Catalog.Proofs.Declared
import Catalog.Proofs.Meets
import Mathlib.Data.List.Basic

/-!
What a draft draws: how many identifiers of each kind it takes, with the numbers that come next, or
why it is rejected. The identifiers of a kind run out only where more are needed than there are.
-/
namespace Catalog

variable {α β : Type}

namespace Allocator

/-- Identifiers may have been issued since, and none has been taken back. -/
structure Precedes (a a' : Allocator) : Prop where
  base : a'.base = a.base
  issued : ∀ k, a.issued k ≤ a'.issued k

variable {a a' a'' : Allocator}

theorem Precedes.refl (a : Allocator) : a.Precedes a :=
  ⟨rfl, fun _ => Nat.le_refl _⟩

theorem Precedes.trans (h : a.Precedes a') (h' : a'.Precedes a'') : a.Precedes a'' :=
  ⟨h'.base.trans h.base, fun k => Nat.le_trans (h.issued k) (h'.issued k)⟩

theorem Precedes.next_le (h : a.Precedes a') (k : Kind) : a.next k ≤ a'.next k := by
  unfold Allocator.next
  rw [h.base]
  exact Nat.add_le_add_left (h.issued k) _

end Allocator

/-- So many numbers of each kind have been taken, and they were there. -/
structure Allocator.Drew (a a' : Allocator) (need : Kind → Nat) : Prop where
  base : a'.base = a.base
  issued : ∀ k, a'.issued k = a.issued k + need k
  fits : ∀ k, a.next k ≤ UInt32.size → a.next k + need k ≤ UInt32.size

namespace Allocator.Drew

variable {a a' a'' : Allocator} {need need' : Kind → Nat}

theorem refl (a : Allocator) : a.Drew a fun _ => 0 :=
  ⟨rfl, fun _ => rfl, fun _ hk => hk⟩

theorem precedes (h : a.Drew a' need) : a.Precedes a' := by
  refine ⟨h.base, fun k => ?_⟩
  rw [h.issued k]
  exact Nat.le_add_right _ _

theorem next (h : a.Drew a' need) (k : Kind) : a'.next k = a.next k + need k := by
  unfold Allocator.next
  rw [h.base, h.issued k, Nat.add_assoc]

theorem trans (h : a.Drew a' need) (h' : a'.Drew a'' need') :
    a.Drew a'' fun k => need k + need' k where
  base := h'.base.trans h.base
  issued := by
    intro k
    rw [h'.issued k, h.issued k, Nat.add_assoc]
  fits := by
    intro k hk
    have hfits := h'.fits k (by rw [h.next k]; exact h.fits k hk)
    rw [h.next k] at hfits
    rw [← Nat.add_assoc]
    exact hfits

end Allocator.Drew

/-- A draft takes `need` numbers of each kind, `R` holds of its result and those numbers, and it is
rejected for a reason in `Q` or for want of numbers. A rejection does not give back what was taken
before it. -/
def Draws (x : Drafting α) (need : Kind → Nat) (R : α → (Kind → List Nat) → Prop)
    (Q : Rejection → Prop) : Prop :=
  ∀ a : Allocator, x.Meets a
    (fun v a' => a.Drew a' need ∧ R v fun k => List.range' (a.next k) (need k))
    (fun r a' => a.Precedes a' ∧
      (Q r ∨ r.kind = .idSpaceExhausted ∧ ∃ k, UInt32.size < a.next k + need k))

namespace Draws

variable {x : Drafting α} {f : α → Drafting β} {need need' : Kind → Nat}
  {R R' : α → (Kind → List Nat) → Prop} {Q Q' : Rejection → Prop}
  {S : β → (Kind → List Nat) → Prop}

theorem imp (h : Draws x need R Q) (hR : ∀ v ns, R v ns → R' v ns) (hQ : ∀ r, Q r → Q' r) :
    Draws x need R' Q' := by
  intro a
  apply (h a).mono
  · rintro v a' ⟨hdrew, hv⟩
    exact ⟨hdrew, hR _ _ hv⟩
  · rintro r a' ⟨hle, hr⟩
    exact ⟨hle, hr.imp_left (hQ r)⟩

theorem need_eq (h : Draws x need R Q) (hneed : ∀ k, need k = need' k) : Draws x need' R Q :=
  funext hneed ▸ h

theorem bind (hx : Draws x need R Q)
    (hf : ∀ v ns, R v ns → Draws (f v) need' (fun w ns' => S w fun k => ns k ++ ns' k) Q) :
    Draws (x >>= f) (fun k => need k + need' k) S Q := by
  intro a
  apply Attempt.Meets.bind
    (P := fun v a' => a.Drew a' need ∧ R v fun k => List.range' (a.next k) (need k))
  · apply (hx a).mono
    · exact fun _ _ h => h
    · rintro r _ ⟨hle, hr | ⟨hr, k, hk⟩⟩
      · exact ⟨hle, .inl hr⟩
      · exact ⟨hle, .inr ⟨hr, k, Nat.lt_of_lt_of_le hk (by simp)⟩⟩
  · rintro v a' ⟨hdrew, hv⟩
    apply (hf v _ hv a').mono
    · rintro w a'' ⟨hdrew', hw⟩
      refine ⟨hdrew.trans hdrew', ?_⟩
      simp only [hdrew.next, List.range'_append_1] at hw
      exact hw
    · rintro r _ ⟨hle, hr | ⟨hr, k, hk⟩⟩
      · exact ⟨hdrew.precedes.trans hle, .inl hr⟩
      · rw [hdrew.next k, Nat.add_assoc] at hk
        exact ⟨hdrew.precedes.trans hle, .inr ⟨hr, k, hk⟩⟩

theorem map {g : α → β} (hx : Draws x need R Q) (hg : ∀ v ns, R v ns → S (g v) ns) :
    Draws (do let v ← x; pure (g v)) need S Q := by
  intro a
  apply Attempt.Meets.bind (hx a)
  rintro v a' ⟨hdrew, hv⟩
  exact Attempt.meets_pure ⟨hdrew, hg _ _ hv⟩

/-- A check of what has been drafted takes no numbers. -/
theorem checked {γ : Type} {check : α → Drafting Unit} {C : α → Prop} {g : α → γ}
    {S : γ → (Kind → List Nat) → Prop} (hx : Draws x need R Q)
    (hcheck : ∀ v ns, R v ns →
      Draws (check v) (fun _ => 0) (fun _ ns' => C v ∧ ∀ k, ns' k = []) Q)
    (hg : ∀ v ns, R v ns → C v → S (g v) ns) :
    Draws (do
        let v ← x
        check v
        pure (g v))
      need S Q := by
  apply need_eq (hx.bind _) fun k => Nat.add_zero _
  intro v ns hv
  apply (hcheck v ns hv).map
  rintro - ns' ⟨hv', hns'⟩
  simp only [hns', List.append_nil]
  exact hg v ns hv hv'

end Draws

variable {R : α → (Kind → List Nat) → Prop} {Q : Rejection → Prop}

theorem draws_pure {v : α} (h : R v fun _ => []) : Draws (pure v) (fun _ => 0) R Q := by
  intro a
  exact Attempt.meets_pure ⟨.refl a, h⟩

theorem draws_reject {r : Rejection} {need : Kind → Nat} (h : Q r) :
    Draws (.reject r) need R Q := by
  intro a
  exact Attempt.meets_reject ⟨.refl a, .inl h⟩

theorem issue_none {k : Kind} {a : Allocator} (h : a.peek k = none) :
    (issue k).run a = (.error { cause := .idSpaceExhausted k.counter a.base }, a) := by
  simp [Attempt.run, issue, Allocator.allocate?, h]

theorem issue_some {k : Kind} {a : Allocator} {i : Id k} (h : a.peek k = some i) :
    (issue k).run a = (.ok i, a.advance k) := by
  simp [Attempt.run, issue, Allocator.allocate?, h]

theorem draws_issue (k : Kind) :
    Draws (issue k) (fun k' => if k' = k then 1 else 0) (fun i ns => ∀ k', i.number k' = ns k')
      Q := by
  intro a
  cases hp : a.peek k with
  | none =>
    apply Attempt.meets_of_run_error (issue_none hp)
    refine ⟨.refl a, .inr ⟨rfl, k, ?_⟩⟩
    simp only [if_true]
    exact Nat.lt_succ_of_le (Allocator.peek_eq_none_iff.mp hp)
  | some i =>
    apply Attempt.meets_of_run_ok (issue_some hp)
    have hnext := Allocator.peek_eq_some_iff.mp hp
    have hlt := i.toNat_lt
    refine ⟨⟨rfl, a.issued_advance k, ?_⟩, ?_⟩
    · intro k' hk'
      split
      · rename_i heq
        subst heq
        omega
      · exact hk'
    · intro k'
      unfold Id.number
      by_cases heq : k' = k
      · subst heq
        simp [hnext]
      · simp [heq]

/-- The numbers of a list of entities follow one another. -/
theorem draws_mapEach {δ : Type} {f : δ → Drafting α} {need : δ → Kind → Nat} {back : α → δ}
    {numbers : α → Kind → List Nat} (ds : List δ)
    (hf : ∀ d, Draws (f d) (need d) (fun v ns => back v = d ∧ ∀ k, numbers v k = ns k) Q) :
    Draws (Attempt.mapEach f ds) (fun k => (ds.map (need · k)).sum)
      (fun vs ns => vs.map back = ds ∧ ∀ k, vs.flatMap (numbers · k) = ns k) Q := by
  induction ds with
  | nil => exact draws_pure ⟨rfl, fun _ => rfl⟩
  | cons d ds ih =>
    apply Draws.need_eq
    · apply Draws.bind (hf d)
      rintro v ns ⟨rfl, hv⟩
      apply Draws.bind ih
      rintro vs ns' ⟨hvs, hns⟩
      apply draws_pure
      refine ⟨by rw [List.map_cons, hvs], ?_⟩
      intro k
      simp only [List.flatMap_cons, hv, hns, List.append_nil]
    · intro k
      simp

/-! Drafts of tables, enums and refs. They are not linked to anything yet. -/

structure Field.Unlinked (f : Field) : Prop where
  enumId : f.enumId = none
  endpoints : f.endpoints = []

structure Table.Unlinked (t : Table) : Prop where
  tags : t.tags = []
  group : t.group = none
  fields : ∀ f ∈ t.fields, f.Unlinked

/-- Entities that are drafted one after another, each under a name that no earlier one has. Fields
and enum values are such. -/
theorem draws_distinct {δ ε : Type} (k : Kind) (name : δ → String) (back : ε → δ) (id : ε → Id k)
    (make : δ → Id k → ε) (refuse : δ → Rejection)
    (draft : List String → List δ → Drafting (List ε))
    (nil : ∀ earlier, draft earlier [] = pure [])
    (cons : ∀ earlier d ds, draft earlier (d :: ds) = do
      let i ← issue k
      if name d ∈ earlier then
        .reject (refuse d)
      else
        let es ← draft (name d :: earlier) ds
        pure (make d i :: es))
    (hback : ∀ d i, back (make d i) = d) (hid : ∀ d i, id (make d i) = i)
    (earlier : List String) (ds : List δ) :
    Draws (draft earlier ds) (fun k' => if k' = k then ds.length else 0)
      (fun es ns => es.map back = ds ∧ (∀ k', es.flatMap (fun e => (id e).number k') = ns k') ∧
        (ds.map name).Nodup ∧ (∀ d ∈ ds, name d ∉ earlier) ∧ ∀ e ∈ es, ∃ d i, e = make d i)
      (fun r => ∃ pre d post, ds = pre ++ d :: post ∧
        (name d ∈ earlier ∨ name d ∈ pre.map name) ∧ r = refuse d) := by
  induction ds generalizing earlier with
  | nil =>
    rw [nil]
    apply Draws.need_eq (draws_pure ⟨rfl, fun _ => rfl, .nil, by simp, by simp⟩)
    intro k'
    simp
  | cons d ds ih =>
    have hneed : ∀ k', (if k' = k then 1 else 0) + (if k' = k then ds.length else 0)
        = if k' = k then (d :: ds).length else 0 := by
      intro k'
      split <;> simp [Nat.add_comm]
    rw [cons]
    apply Draws.need_eq _ hneed
    apply Draws.bind (draws_issue k)
    intro i ns hns
    split
    · rename_i hd
      exact draws_reject ⟨[], d, ds, rfl, .inl hd, rfl⟩
    · rename_i hd
      apply ((ih (name d :: earlier)).map _).imp (fun _ _ h => h)
      · rintro r ⟨pre, d', post, rfl, hd', hr⟩
        refine ⟨d :: pre, d', post, rfl, ?_, hr⟩
        simp only [List.mem_cons, List.map_cons] at hd' ⊢
        tauto
      · rintro es ns' ⟨hes, hns', hnodup, hearlier, hmade⟩
        refine ⟨by rw [List.map_cons, hback, hes], ?_, ?_, ?_, ?_⟩
        · intro k'
          rw [List.flatMap_cons, hid, hns, hns']
        · rw [List.map_cons, List.nodup_cons]
          refine ⟨?_, hnodup⟩
          intro hmem
          obtain ⟨d', hd', heq⟩ := List.mem_map.mp hmem
          exact hearlier d' hd' (heq ▸ List.mem_cons_self)
        · intro d' hd' hname
          rcases List.mem_cons.mp hd' with rfl | hd'
          · exact hd hname
          · exact hearlier d' hd' (List.mem_cons_of_mem _ hname)
        · intro e he
          rcases List.mem_cons.mp he with rfl | he
          · exact ⟨d, i, rfl⟩
          · exact hmade e he

theorem draws_fields (table : String) (ds : List Decl.Field) :
    Draws (draftFields table [] ds) (fun k => if k = .field then ds.length else 0)
      (fun fs ns => fs.map (·.declared) = ds ∧ (∀ k, fs.flatMap (·.id.number k) = ns k) ∧
        (ds.map (·.name)).Nodup ∧ ∀ f ∈ fs, f.Unlinked)
      (fun r => ∃ pre d post, ds = pre ++ d :: post ∧ d.name ∈ pre.map (·.name) ∧
        r.kind = .duplicateFieldName ∧ r.span = d.token) := by
  apply (draws_distinct .field (·.name) Field.declared (·.id)
    (fun d i => { toFieldInfo := d.toFieldInfo, id := i, token := d.token }) _
    (draftFields table) (fun _ => rfl) (fun _ _ _ => rfl) (fun _ _ => rfl) (fun _ _ => rfl)
    [] ds).imp
  · rintro fs ns ⟨hfs, hns, hnodup, -, hmade⟩
    refine ⟨hfs, hns, hnodup, ?_⟩
    intro f hf
    obtain ⟨d, i, rfl⟩ := hmade f hf
    exact ⟨rfl, rfl⟩
  · rintro r ⟨pre, d, post, hsplit, hd, rfl⟩
    exact ⟨pre, d, post, hsplit, by simpa using hd, rfl, rfl⟩

theorem draws_values (enum : String) (ds : List Decl.EnumValue) :
    Draws (draftValues enum [] ds) (fun k => if k = .enumValue then ds.length else 0)
      (fun vs ns => vs.map (·.declared) = ds ∧ (∀ k, vs.flatMap (·.id.number k) = ns k) ∧
        (ds.map (·.name)).Nodup)
      (fun r => ∃ pre d post, ds = pre ++ d :: post ∧ d.name ∈ pre.map (·.name) ∧
        r.kind = .duplicateEnumValue ∧ r.span = d.token) := by
  apply (draws_distinct .enumValue (·.name) EnumValue.declared (·.id)
    (fun d i => { toEnumValueInfo := d.toEnumValueInfo, id := i, token := d.token }) _
    (draftValues enum) (fun _ => rfl) (fun _ _ _ => rfl) (fun _ _ => rfl) (fun _ _ => rfl)
    [] ds).imp
  · rintro vs ns ⟨hvs, hns, hnodup, -, -⟩
    exact ⟨hvs, hns, hnodup⟩
  · rintro r ⟨pre, d, post, hsplit, hd, rfl⟩
    exact ⟨pre, d, post, hsplit, by simpa using hd, rfl, rfl⟩

theorem draws_index (d : Decl.Index) :
    Draws (draftIndex d)
      (fun k => (if k = .index then 1 else 0) +
        (d.columns.map fun _ => if k = .indexColumn then 1 else 0).sum)
      (fun i ns => i.declared = d ∧ ∀ k, i.numbers k = ns k) Q := by
  have column : ∀ e : Decl.IndexColumn, Draws (draftColumn e)
      (fun k => if k = .indexColumn then 1 else 0)
      (fun v ns => v.declared = e ∧ ∀ k, v.id.number k = ns k) Q := by
    intro e
    apply (draws_issue .indexColumn).map
    intro i ns hns
    exact ⟨rfl, hns⟩
  unfold draftIndex
  apply Draws.bind (draws_issue .index)
  intro i ns hns
  apply (draws_mapEach d.columns column).map
  rintro columns ns' ⟨hcolumns, hns'⟩
  refine ⟨?_, ?_⟩
  · unfold Index.declared
    rw [hcolumns]
  · intro k
    rw [Index.numbers, hns, hns']

theorem draws_table (d : Decl.Table) :
    Draws (draftTable d) d.extent
      (fun t ns => t.declared = d.bare ∧ (∀ k, t.numbers k = ns k) ∧ t.Unlinked ∧
        (d.fields.map (·.name)).Nodup)
      (fun r => ∃ pre f post, d.fields = pre ++ f :: post ∧ f.name ∈ pre.map (·.name) ∧
        r.kind = .duplicateFieldName ∧ r.span = f.token) := by
  have hneed : ∀ k, (if k = Kind.table then 1 else 0) +
      ((if k = .field then d.fields.length else 0) + (d.indexes.map fun i =>
        (if k = .index then 1 else 0) +
          (i.columns.map fun _ => if k = .indexColumn then 1 else 0).sum).sum) = d.extent k := by
    intro k
    cases k <;> simp [Decl.Table.extent]
  apply Draws.need_eq _ hneed
  unfold draftTable
  apply Draws.bind (draws_issue .table)
  intro i ns hns
  apply Draws.bind (draws_fields d.name d.fields)
  rintro fields ns' ⟨hfields, hns', hnodup, hunlinked⟩
  apply (draws_mapEach d.indexes fun e => draws_index e).map
  rintro indexes ns'' ⟨hindexes, hns''⟩
  refine ⟨?_, ?_, ⟨rfl, rfl, hunlinked⟩, hnodup⟩
  · unfold Table.declared Decl.Table.bare
    rw [hfields, hindexes]
  · intro k
    rw [Table.numbers, hns, hns', hns'', List.append_assoc]

theorem draws_enum (d : Decl.Enum) :
    Draws (draftEnum d) d.extent
      (fun e ns => e.declared = d.bare ∧ (∀ k, e.numbers k = ns k) ∧ e.fields = [] ∧
        (d.values.map (·.name)).Nodup)
      (fun r => ∃ pre v post, d.values = pre ++ v :: post ∧ v.name ∈ pre.map (·.name) ∧
        r.kind = .duplicateEnumValue ∧ r.span = v.token) := by
  have hneed : ∀ k, (if k = Kind.enum then 1 else 0) +
      (if k = .enumValue then d.values.length else 0) = d.extent k := by
    intro k
    cases k <;> simp [Decl.Enum.extent]
  apply Draws.need_eq _ hneed
  unfold draftEnum
  apply Draws.bind (draws_issue .enum)
  intro i ns hns
  apply (draws_values d.name d.values).map
  rintro values ns' ⟨hvalues, hns', hnodup⟩
  refine ⟨?_, ?_, rfl, hnodup⟩
  · unfold Enum.declared Decl.Enum.bare
    rw [hvalues]
  · intro k
    rw [Enum.numbers, hns, hns']

/-- An endpoint is what has been resolved, under an identifier of its own. -/
structure Endpoint.Of (v : Endpoint) (e : Resolved) : Prop where
  info : v.toEndpointInfo = e.declared.toEndpointInfo
  token : v.token = e.declared.token
  table : v.table = e.table
  fields : v.fields = e.fields

theorem draws_endpoint (e : Resolved) :
    Draws (draftEndpoint e) (fun k => if k = .endpoint then 1 else 0)
      (fun v ns => v.Of e ∧ ∀ k, v.id.number k = ns k) Q := by
  apply (draws_issue .endpoint).map
  intro i ns hns
  exact ⟨⟨rfl, rfl, rfl, rfl⟩, hns⟩

theorem draws_ref (d : Decl.Ref) (first second : Resolved) :
    Draws (draftRef d first second)
      (fun k => if k = .ref then 1 else if k = .endpoint then 2 else 0)
      (fun r ns => (r.toRefInfo = d.toRefInfo ∧ r.token = d.token) ∧ r.first.Of first ∧
        r.second.Of second ∧ ∀ k, r.numbers k = ns k) Q := by
  have hneed : ∀ k, (if k = Kind.ref then 1 else 0) +
      ((if k = .endpoint then 1 else 0) + if k = .endpoint then 1 else 0)
      = if k = .ref then 1 else if k = .endpoint then 2 else 0 := by
    intro k
    cases k <;> rfl
  apply Draws.need_eq _ hneed
  unfold draftRef
  apply Draws.bind (draws_issue .ref)
  intro i ns hns
  apply Draws.bind (draws_endpoint first)
  rintro e₁ ns₁ ⟨h₁, hns₁⟩
  apply (draws_endpoint second).map
  rintro e₂ ns₂ ⟨h₂, hns₂⟩
  refine ⟨⟨rfl, rfl⟩, h₁, h₂, ?_⟩
  intro k
  simp only [Ref.numbers, Ref.endpoints, List.flatMap_cons, List.flatMap_nil, List.append_nil, hns,
    hns₁, hns₂]

/-! The checks against a schema that exists. -/

section Checks

variable {db : Database} {s : Schema} {id : Id .schema}

theorem draws_checkName_of_schema? (hs : db.schema? id = some s) (sort : ChildSort) (own : String)
    (token : Span) :
    Draws (Assembly.checkName db id sort own token) (fun _ => 0)
      (fun _ ns => own ∉ s.names sort ∧ ∀ k, ns k = [])
      (fun r => own ∈ s.names sort ∧ r.kind = sort.violation ∧ r.span = token) := by
  unfold Assembly.checkName
  rw [hs]
  dsimp only
  split
  · rename_i hold
    exact draws_reject ⟨hold, rfl, rfl⟩
  · rename_i hnew
    exact draws_pure ⟨hnew, fun _ => rfl⟩

theorem draws_checkRef_of_schema? (hs : db.schema? id = some s) (r : Ref) :
    Draws (Assembly.checkRef db id r) (fun _ => 0)
      (fun _ ns => (∀ other ∈ s.refs, r.connectsSame other = false) ∧ ∀ k, ns k = [])
      (fun rej => (∃ other ∈ s.refs, r.connectsSame other = true) ∧ rej.kind = .duplicateRef ∧
        rej.span = r.token) := by
  unfold Assembly.checkRef
  rw [hs]
  dsimp only
  split
  · rename_i hany
    exact draws_reject ⟨List.any_eq_true.mp hany, rfl, rfl⟩
  · rename_i hany
    apply draws_pure
    refine ⟨?_, fun _ => rfl⟩
    intro other hother
    rw [← Bool.not_eq_true]
    exact fun hsame => hany (List.any_eq_true.mpr ⟨other, hother, hsame⟩)

/-- Tables can be put into a group where none of them is in one. -/
theorem draws_checkUngrouped_of_grouped (tables : List Table) (token : Span) :
    Draws (Assembly.checkUngrouped db tables token) (fun _ => 0)
      (fun _ ns => Database.firstGrouped? tables = none ∧ ∀ k, ns k = [])
      (fun r => Database.firstGrouped? tables ≠ none ∧ r.kind = .tableAlreadyGrouped ∧
        r.span = token) := by
  unfold Assembly.checkUngrouped
  split
  · rename_i hnone
    exact draws_pure ⟨hnone, fun _ => rfl⟩
  · rename_i hsome
    exact draws_reject ⟨by simp [hsome], rfl, rfl⟩

end Checks

end Catalog
