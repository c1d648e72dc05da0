import Catalog.Proofs.Lookup
import Catalog.Proofs.RefLinks

/-!
When refs are equal. The check compares every endpoint of one ref with the endpoints of the other,
in one direction. That amounts to the same two sets of fields, in no order, because the sides of a
ref differ.
-/
namespace Catalog

section Sides

variable {r r' s s' : Ref}

theorem Ref.isDiag_sides_iff : r.sides.IsDiag ↔ r.first.fieldSet = r.second.fieldSet :=
  Sym2.mk_isDiag_iff

/-- The check asks whether each side of the second ref is a side of the first one. -/
theorem Ref.connectsSame_iff_mem_sides :
    r.connectsSame s = true ↔ s.first.fieldSet ∈ r.sides ∧ s.second.fieldSet ∈ r.sides := by
  simp only [connectsSame, endpoints, sides, List.all_cons, List.all_nil, List.any_cons,
    List.any_nil, Bool.and_true, Bool.or_false, Bool.and_eq_true, Bool.or_eq_true,
    Endpoint.sameFields_iff_fieldSet, Sym2.mem_iff]
  constructor <;> exact fun h => ⟨h.1.imp Eq.symm Eq.symm, h.2.imp Eq.symm Eq.symm⟩

/-- The direction of the check makes no difference where the sides of the second ref differ: two
different sets that are sides of the first ref are its sides. -/
theorem Ref.connectsSame_iff_sides (hs : ¬ s.sides.IsDiag) :
    r.connectsSame s = true ↔ r.sides = s.sides := by
  rw [isDiag_sides_iff] at hs
  rw [connectsSame_iff_mem_sides]
  exact Sym2.mem_and_mem_iff hs

/-- The endpoints of one ref are those of the other, in either order and with their fields in any
order. The relations, the names and the actions may be others. -/
def Ref.Rearranges (r r' : Ref) : Prop :=
  r.first.fields.Perm r'.first.fields ∧ r.second.fields.Perm r'.second.fields ∨
    r.first.fields.Perm r'.second.fields ∧ r.second.fields.Perm r'.first.fields

theorem Endpoint.fieldSet_eq_of_perm {e e' : Endpoint} (h : e.fields.Perm e'.fields) :
    e.fieldSet = e'.fieldSet :=
  List.toFinset_eq_of_perm _ _ h

theorem Ref.Rearranges.sides (h : r.Rearranges r') : r.sides = r'.sides := by
  apply Sym2.eq_iff.mpr
  exact h.imp (And.imp Endpoint.fieldSet_eq_of_perm Endpoint.fieldSet_eq_of_perm)
    (And.imp Endpoint.fieldSet_eq_of_perm Endpoint.fieldSet_eq_of_perm)

end Sides

/-- What refs stored in any of the schemas connect decides whether they are equal. -/
structure Database.ComparesRefs (db : Database) : Prop where
  iff_sides : ∀ r ∈ db.refs, ∀ s ∈ db.refs, r.connectsSame s = true ↔ r.sides = s.sides
  equivalence : Equivalence fun r s : { r // r ∈ db.refs } => r.val.connectsSame s.val = true
  blind : ∀ r ∈ db.refs, ∀ s ∈ db.refs, ∀ r' s', r.Rearranges r' → s.Rearranges s' →
    r'.connectsSame s' = r.connectsSame s

/-- The comparison of two refs that a database holds under the given identifiers. -/
def Database.equalRefs (db : Database) (i j : Id .ref) : Bool :=
  match db.ref? i, db.ref? j with
  | some r, some s => r.connectsSame s
  | _, _ => false

/-- Two refs of one schema, at different places, are equal. -/
def Schema.HasEqualRefs (s : Schema) : Prop :=
  ∃ r r', [r, r'].Sublist s.refs ∧ r.connectsSame r' = true

namespace Assembly

/-- A ref is drafted from a declaration that can be resolved, and `ids` remain. -/
def DraftsRef (a : Assembly) (d : Decl.Ref) (r : Ref) (ids : Allocator) : Prop :=
  ∃ first second, a.database.resolveRef d = .ok (first, second) ∧
    (draftRef d first second).run a.ids = (.ok r, ids)

/-- A draft is told apart from the refs that there are as it would be if it was one of them, and it
is rejected just where it would be equal to one of its schema. -/
structure JudgesDraft (a : Assembly) (id : Id .schema) (d : Decl.Ref) (r : Ref)
    (ids : Allocator) : Prop where
  proper : ¬ r.sides.IsDiag
  stored : (a.database.addRef id r).ref? r.id = some r
  kept : ∀ other ∈ a.database.refs, (a.database.addRef id r).ref? other.id = some other
  iff_sides : ∀ other ∈ a.database.refs, r.connectsSame other = true ↔ r.sides = other.sides
  answers : ∀ other ∈ a.database.refs,
    r.connectsSame other = (a.database.addRef id r).equalRefs r.id other.id
  rejects : (∃ s ∈ (a.database.addRef id r).schemas, s.id = id ∧ s.HasEqualRefs) →
    (pushRef id d).run a = (.error { cause := .duplicateRef, span := d.token }, ⟨a.database, ids⟩)
  accepts : (¬ ∃ s ∈ (a.database.addRef id r).schemas, s.id = id ∧ s.HasEqualRefs) →
    (pushRef id d).run a = (.ok r, ⟨a.database.addRef id r, ids⟩)

end Assembly

/-! The refs that are there. -/

section Stored

variable {db : Database} {r s : Ref}

theorem Ref.Proper.sides_differ (h : r.Proper db) : ¬ r.sides.IsDiag :=
  fun hdiag => h.differ (Ref.isDiag_sides_iff.mp hdiag)

theorem Database.Connected.comparesRefs (h : db.Connected) : db.ComparesRefs := by
  have hsides : ∀ r : Ref, ∀ s ∈ db.refs, r.connectsSame s = true ↔ r.sides = s.sides :=
    fun r s hs => Ref.connectsSame_iff_sides (h.proper s hs).sides_differ
  constructor
  · exact fun r _ s hs => hsides r s hs
  · constructor
    · exact fun r => (hsides r r r.property).mpr rfl
    · intro r s hrs
      exact (hsides s r r.property).mpr ((hsides r s s.property).mp hrs).symm
    · intro r s t hrs hst
      apply (hsides r t t.property).mpr
      exact ((hsides r s s.property).mp hrs).trans ((hsides s t t.property).mp hst)
  · intro r hr s hs r' s' hr' hs'
    have hdiffer : ¬ s'.sides.IsDiag := hs'.sides ▸ (h.proper s hs).sides_differ
    rw [Bool.eq_iff_iff, Ref.connectsSame_iff_sides hdiffer, hsides r s hs, hr'.sides, hs'.sides]

/-- Refs of a schema do not equal one another. -/
theorem Database.Connected.refs_apart (h : db.Connected) {s : Schema} (hs : s ∈ db.schemas) :
    s.refs.Pairwise fun r r' => r.connectsSame r' = false := by
  apply (List.pairwise_map.mp (h.apart s hs)).imp_of_mem
  intro r r' _ hr' hne
  have hproper := h.proper r' (List.mem_flatMap.mpr ⟨s, hs, hr'⟩)
  rw [← Bool.not_eq_true, Ref.connectsSame_iff_sides hproper.sides_differ]
  exact hne

theorem Schema.hasEqualRefs_iff {s : Schema} :
    s.HasEqualRefs ↔ ¬ s.refs.Pairwise fun r r' => r.connectsSame r' = false := by
  simp only [HasEqualRefs, List.pairwise_iff_forall_sublist, not_forall, Bool.not_eq_false,
    exists_prop]

end Stored

/-! A ref that is about to be stored. -/

namespace Assembly

variable {a : Assembly} {d : Decl.Ref} {r : Ref} {ids : Allocator} {s : Schema}

/-- A draft is resolved, and its identifier is none of those in use. -/
theorem DraftsRef.resolved (h : a.DraftsRef d r ids) (hn : a.Numbered) :
    r.ResolvedIn a.database ∧ r.token = d.token ∧ ∀ other ∈ a.database.refs, other.id ≠ r.id := by
  obtain ⟨first, second, hres, hdraft⟩ := h
  have hdrew := (draws_ref (Q := fun _ => True) d first second a.ids).of_run_ok hdraft
  obtain ⟨-, ⟨hinfo, htoken⟩, hfirst, hsecond, hnumbers⟩ := hdrew
  refine ⟨⟨d, first, second, hres, hinfo, htoken, hfirst, hsecond⟩, htoken, ?_⟩
  intro other hother hid
  have hnext : r.id.toNat = a.ids.next .ref := by
    simpa [Ref.numbers, Ref.endpoints, Id.number] using hnumbers .ref
  have hbelow : other.id.toNat < a.ids.next .ref :=
    hn.below .ref _ (Database.mem_arena.mp (List.mem_map.mpr ⟨other, hother, rfl⟩))
  rw [hid] at hbelow
  omega

/-- Inserting a ref comes down to the check of its draft. -/
theorem DraftsRef.run_pushRef (h : a.DraftsRef d r ids) {id : Id .schema}
    (hs : a.database.schema? id = some s) :
    (pushRef id d).run a = if s.refs.any (r.connectsSame ·) then
      (.error { cause := .duplicateRef, span := r.token }, ⟨a.database, ids⟩)
    else (.ok r, ⟨a.database.addRef id r, ids⟩) := by
  obtain ⟨first, second, hres, hdraft⟩ := h
  have hchecked : Attempt.run (do
      let ends ← Attempt.ofExcept (a.database.resolveRef d)
      let r ← draftRef d ends.1 ends.2
      checkRef a.database id r
      pure r) a.ids = (do checkRef a.database id r; pure r : Drafting Ref).run ids := by
    rw [Attempt.run_bind_ok (by rw [Attempt.run_ofExcept, hres])]
    exact Attempt.run_bind_ok hdraft _
  have hcheck : (checkRef a.database id r).run ids = if s.refs.any (r.connectsSame ·) then
      (.error { cause := .duplicateRef, span := r.token }, ids) else (.ok (), ids) := by
    rw [checkRef, hs]
    dsimp only
    split <;> rfl
  split at hcheck <;> rename_i hany
  · rw [if_pos hany]
    apply insert_error
    exact hchecked.trans (Attempt.run_bind_error hcheck _)
  · rw [if_neg hany]
    apply insert_ok
    exact hchecked.trans (Attempt.run_bind_ok hcheck _)

/-- The schema that a ref is stored in has it as its last one. -/
theorem Numbered.exists_addRef_iff (hn : a.Numbered) (hs : s ∈ a.database.schemas)
    {P : List Ref → Prop} :
    (∃ s' ∈ (a.database.addRef s.id r).schemas, s'.id = s.id ∧ P s'.refs) ↔
      P (s.refs ++ [r]) := by
  constructor
  · rintro ⟨s', hs', hid, hrefs⟩
    obtain ⟨t', ht', rfl⟩ := Database.mem_updateSchema.mp hs'
    obtain ⟨t, ht, rfl⟩ := List.mem_map.mp ht'
    by_cases heq : t.id = s.id
    · rw [if_pos heq, Database.eq_of_schema_id (hn.nodup .schema) ht hs heq] at hrefs
      exact hrefs
    · rw [if_neg heq] at hid
      exact absurd hid heq
  · intro hrefs
    refine ⟨_, Database.mem_updateSchema.mpr ⟨_, List.mem_map.mpr ⟨s, hs, rfl⟩, rfl⟩, ?_⟩
    rw [if_pos rfl]
    exact ⟨rfl, hrefs⟩

/-- Storing a draft makes two refs of the schema equal where it is equal to one of them. -/
theorem Numbered.hasEqualRefs_iff_any (hn : a.Numbered) (hc : a.database.Connected)
    (hs : s ∈ a.database.schemas) (hr : ¬ r.sides.IsDiag) :
    (∃ s' ∈ (a.database.addRef s.id r).schemas, s'.id = s.id ∧ s'.HasEqualRefs) ↔
      s.refs.any (r.connectsSame ·) = true := by
  have hflip : ∀ other ∈ s.refs, other.connectsSame r = r.connectsSame other := by
    intro other hother
    have hproper := hc.proper other (List.mem_flatMap.mpr ⟨s, hs, hother⟩)
    rw [Bool.eq_iff_iff, Ref.connectsSame_iff_sides hr,
      Ref.connectsSame_iff_sides hproper.sides_differ, eq_comm]
  have hpairs : (s.refs ++ [r]).Pairwise (fun r r' => r.connectsSame r' = false) ↔
      ∀ other ∈ s.refs, r.connectsSame other = false := by
    rw [List.pairwise_append]
    constructor
    · intro ⟨_, _, hlast⟩ other hother
      rw [← hflip other hother]
      exact hlast other hother r List.mem_cons_self
    · intro hnone
      refine ⟨hc.refs_apart hs, List.pairwise_singleton _ _, ?_⟩
      intro other hother r' hr'
      rw [List.mem_singleton.mp hr', hflip other hother]
      exact hnone other hother
  simp only [Schema.hasEqualRefs_iff]
  rw [hn.exists_addRef_iff hs (P := fun rs => ¬ rs.Pairwise fun r r' => r.connectsSame r' = false),
    hpairs]
  simp only [List.any_eq_true, not_forall, Bool.not_eq_false, exists_prop]

/-- Refs are found in the database that a draft is stored in, and so is the draft. -/
theorem DraftsRef.ref?_addRef (h : a.DraftsRef d r ids) (hn : a.Numbered)
    (hs : s ∈ a.database.schemas) {other : Ref} (hother : other ∈ a.database.refs ∨ other = r) :
    (a.database.addRef s.id r).ref? other.id = some other := by
  have hmem : ∀ r', r' ∈ (a.database.addRef s.id r).refs ↔ r' ∈ a.database.refs ∨ r' = r := by
    intro r'
    rw [a.database.addRef_eq s.id r, Database.mem_refs_place ⟨s, hs, rfl⟩]
    exact or_congr_right List.mem_singleton
  have hunique : ∀ r' ∈ (a.database.addRef s.id r).refs, r'.id = other.id → r' = other := by
    have hfresh := (h.resolved hn).2.2
    intro r' hr' hid
    rcases (hmem r').mp hr' with hold | hnew <;> rcases hother with hother | hlast
    · exact List.inj_on_of_nodup_map (Database.nodup_arena (hn.nodup .ref)) hold hother hid
    · exact absurd (hid.trans (congrArg Ref.id hlast)) (hfresh r' hold)
    · exact absurd (hid.symm.trans (congrArg Ref.id hnew)) (hfresh other hother)
    · exact hnew.trans hlast.symm
  apply find?_of_unique ((hmem other).mpr hother) (decide_eq_true rfl)
  exact fun r' hr' hid => hunique r' hr' (of_decide_eq_true hid)

theorem DraftsRef.judged (h : a.DraftsRef d r ids) (hn : a.Numbered) (hc : a.database.Connected)
    (hs : s ∈ a.database.schemas) : a.JudgesDraft s.id d r ids := by
  obtain ⟨hresolved, htoken, -⟩ := h.resolved hn
  have hproper : ¬ r.sides.IsDiag := hresolved.proper.sides_differ
  have hstored : (a.database.addRef s.id r).ref? r.id = some r := h.ref?_addRef hn hs (.inr rfl)
  have hkept : ∀ other ∈ a.database.refs,
      (a.database.addRef s.id r).ref? other.id = some other :=
    fun other hother => h.ref?_addRef hn hs (.inl hother)
  have hschema : a.database.schema? s.id = some s :=
    find?_of_nodup (Database.nodup_arena (hn.nodup .schema)) hs
  refine ⟨hproper, hstored, hkept, ?_, ?_, ?_, ?_⟩
  · exact fun other hother => Ref.connectsSame_iff_sides (hc.proper other hother).sides_differ
  · intro other hother
    rw [Database.equalRefs, hstored, hkept other hother]
  · intro hequal
    rw [h.run_pushRef hschema, if_pos ((hn.hasEqualRefs_iff_any hc hs hproper).mp hequal), htoken]
  · intro hnone
    rw [h.run_pushRef hschema,
      if_neg fun hany => hnone ((hn.hasEqualRefs_iff_any hc hs hproper).mpr hany)]

/-- In every state that can be reached, refs are equal where they connect the same two sets of
fields, and a ref that is inserted is rejected where it would equal one of its schema. -/
theorem Reachable.compares_refs (h : a.Reachable) :
    a.database.ComparesRefs ∧ ∀ s ∈ a.database.schemas, ∀ d r ids, a.DraftsRef d r ids →
      a.JudgesDraft s.id d r ids :=
  ⟨h.connected.comparesRefs, fun _ hs _ _ _ hdraft => hdraft.judged h.sound.numbered h.connected hs⟩

end Assembly

/-- The ref of the stops with its endpoints and their fields the other way round. -/
def Decl.Ref.stopsBack : Decl.Ref :=
  .between (.covering "stops" ["line", "id"] .many) (.covering "stops" ["line", "next"] .one)

/-- What a ref connects counts, and not how it is written. -/
theorem Assembly.compares_refs_stops : ∃ a, build .stops {} = .ok a ∧ a.database.ComparesRefs ∧
    ∃ r ids, a.DraftsRef .stopsBack r ids ∧ a.JudgesDraft ⟨1⟩ .stopsBack r ids ∧
      a.database.refs.map (r.connectsSame ·) = [true] ∧
      ((pushRef ⟨1⟩ .stopsBack).run a).1 = .error { cause := .duplicateRef } := by
  have hbuilt : (build .stops {}).toOption.any (fun a =>
      a.database.schemas.any (·.id = ⟨1⟩) && ((a.database.resolveRef .stopsBack).toOption.any
        fun ends => ((draftRef .stopsBack ends.1 ends.2).run a.ids).1.toOption.any fun r =>
          decide (a.database.refs.map (r.connectsSame ·) = [true] ∧
            ((pushRef ⟨1⟩ .stopsBack).run a).1 = .error { cause := .duplicateRef }))) = true := by
    decide +kernel
  obtain ⟨a, ha, heval⟩ := exists_ok_of_any hbuilt
  rw [Bool.and_eq_true, List.any_eq_true] at heval
  obtain ⟨⟨s, hs, hid⟩, hdrafted⟩ := heval
  obtain ⟨ends, hres, hdrafted⟩ := exists_ok_of_any hdrafted
  obtain ⟨r, hr, heval⟩ := exists_ok_of_any hdrafted
  have hdraft : a.DraftsRef .stopsBack r ((draftRef .stopsBack ends.1 ends.2).run a.ids).2 :=
    ⟨ends.1, ends.2, hres, Prod.ext hr rfl⟩
  obtain ⟨hcompares, hjudges⟩ := (Reachable.build ha).compares_refs
  have hjudged := hjudges s hs _ _ _ hdraft
  rw [of_decide_eq_true hid] at hjudged
  exact ⟨a, ha, hcompares, r, _, hdraft, hjudged, of_decide_eq_true heval⟩

end Catalog
