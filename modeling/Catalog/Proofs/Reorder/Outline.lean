import Catalog.Proofs.Validity
import Mathlib.Algebra.BigOperators.Group.List.Basic
import Mathlib.Data.List.Perm.Basic

/-!
Records in another order. Outside of schema declarations, all records but tables may change places
among their like: the outline of the bundle keeps its schemas and what they hold, in another order.
Lookups see no difference, and what an outline has to meet does not depend on order.
-/
namespace Catalog

/-- Where one element at most passes a test, it is found wherever it stands. -/
theorem find?_eq_of_perm {α : Type} {p : α → Bool} {l l' : List α} (h : l.Perm l')
    (hunique : l.Pairwise fun x y => ¬ (p x = true ∧ p y = true)) : l.find? p = l'.find? p := by
  have symm : Std.Symm fun x y => ¬ (p x = true ∧ p y = true) :=
    ⟨fun _ _ hne hboth => hne hboth.symm⟩
  cases hfind : l'.find? p with
  | none =>
    rw [List.find?_eq_none] at hfind ⊢
    exact fun x hx => hfind x (h.mem_iff.mp hx)
  | some y =>
    have hy : y ∈ l := h.mem_iff.mpr (List.mem_of_find?_eq_some hfind)
    have hpy := List.find?_some hfind
    apply find?_of_unique hy hpy
    intro x hx hpx
    by_contra hne
    exact hunique.forall hx hy hne ⟨hpx, hpy⟩

namespace Decl

/-- The same schema with the same records, all but its tables in another order. -/
structure Schema.Reorders (s s' : Schema) : Prop where
  info : s'.toSchemaInfo = s.toSchemaInfo
  tables : s'.tables = s.tables
  refs : s.refs.Perm s'.refs
  enums : s.enums.Perm s'.enums
  tags : s.tags.Perm s'.tags
  tableGroups : s.tableGroups.Perm s'.tableGroups

/-- The same schemas in another order, each with its records in another order. -/
def Outline.Reorders (o o' : Outline) : Prop :=
  ∃ u, List.Forall₂ Schema.Reorders o u ∧ u.Perm o'

/-- The same declarations, except that refs, enums, tags and groups outside of schemas may stand in
another order. -/
structure Bundle.Reorders (b b' : Bundle) : Prop where
  project : b'.project = b.project
  schemas : b'.schemas = b.schemas
  tables : b'.tables = b.tables
  refs : b.refs.Perm b'.refs
  enums : b.enums.Perm b'.enums
  tags : b.tags.Perm b'.tags
  tableGroups : b.tableGroups.Perm b'.tableGroups

theorem Bundle.Reorders.symm {b b' : Bundle} (h : b.Reorders b') : b'.Reorders b where
  project := h.project.symm
  schemas := h.schemas.symm
  tables := h.tables.symm
  refs := h.refs.symm
  enums := h.enums.symm
  tags := h.tags.symm
  tableGroups := h.tableGroups.symm

/-! Schemas. -/

namespace Schema.Reorders

variable {s s' : Schema}

theorem records (h : s.Reorders s') : s.records.Perm s'.records := by
  unfold Schema.records
  rw [h.tables]
  have htags := (h.tags.map Item.tag).append_left (s.tables.map Item.table)
  exact ((htags.append (h.enums.map _)).append (h.refs.map _)).append (h.tableGroups.map _)

theorem extent (h : s.Reorders s') (k : Kind) : s.extent k = s'.extent k := by
  unfold Schema.extent
  rw [(h.records.map (·.extent k)).sum_eq]

theorem isDefault (h : s.Reorders s') (c : Config) :
    Stage.isDefault c s = Stage.isDefault c s' := by
  unfold Stage.isDefault isPopulated
  rw [h.info, h.records.isEmpty_eq]

theorem outward (h : s.Reorders s') : s.outward = s'.outward := by
  unfold Schema.outward
  rw [h.info, h.tables]

theorem distinct (h : s.Reorders s') (hs : s.Distinct) : s'.Distinct where
  tables := h.tables ▸ hs.tables
  enums := (h.enums.map _).nodup_iff.mp hs.enums
  tags := (h.tags.map _).nodup_iff.mp hs.tags
  tableGroups := (h.tableGroups.map _).nodup_iff.mp hs.tableGroups
  fields := h.tables ▸ hs.fields
  values := fun e he => hs.values e (h.enums.mem_iff.mpr he)

theorem impliedTags_eq (h : s.Reorders s') :
    impliedTags (s.tags.map (·.name)) (s.tables.flatMap (·.tags))
      = impliedTags (s'.tags.map (·.name)) (s'.tables.flatMap (·.tags)) := by
  rw [h.tables]
  exact impliedTags_congr (fun _ => (h.tags.map _).mem_iff) _

theorem withImpliedTags (h : s.Reorders s') : s.withImpliedTags.Reorders s'.withImpliedTags where
  info := h.info
  tables := h.tables
  refs := h.refs
  enums := h.enums
  tags := by
    unfold Schema.withImpliedTags
    rw [h.impliedTags_eq]
    exact h.tags.append_right _
  tableGroups := h.tableGroups

end Schema.Reorders

/-! Outlines. -/

namespace Outline.Reorders

variable {c : Config} {o o' : Outline}

theorem exists_right (h : o.Reorders o') {s : Schema} (hs : s ∈ o) :
    ∃ s' ∈ o', s.Reorders s' := by
  obtain ⟨u, hpaired, hperm⟩ := h
  obtain ⟨s', hs', hss'⟩ := exists_right_of_paired hpaired hs
  exact ⟨s', hperm.mem_iff.mp hs', hss'⟩

theorem exists_left (h : o.Reorders o') {s' : Schema} (hs' : s' ∈ o') :
    ∃ s ∈ o, s.Reorders s' := by
  obtain ⟨u, hpaired, hperm⟩ := h
  exact exists_left_of_paired hpaired (hperm.mem_iff.mpr hs')

theorem withImpliedTags (h : o.Reorders o') :
    Outline.Reorders (o.map (·.withImpliedTags)) (o'.map (·.withImpliedTags)) := by
  obtain ⟨u, hpaired, hperm⟩ := h
  refine ⟨u.map (·.withImpliedTags), ?_, hperm.map _⟩
  rw [List.forall₂_map_left_iff, List.forall₂_map_right_iff]
  exact hpaired.imp fun _ _ hs => hs.withImpliedTags

theorem extent (h : o.Reorders o') (k : Kind) : o.extent k = o'.extent k := by
  obtain ⟨u, hpaired, hperm⟩ := h
  unfold Outline.extent
  rw [map_eq_of_paired hpaired fun _ _ hs => hs.extent k, (hperm.map (·.extent k)).sum_eq]

theorem any_isDefault (h : o.Reorders o') :
    o.any (Stage.isDefault c) = o'.any (Stage.isDefault c) := by
  rw [Bool.eq_iff_iff, List.any_eq_true, List.any_eq_true]
  constructor
  · rintro ⟨s, hs, hdefault⟩
    obtain ⟨s', hs', hss'⟩ := h.exists_right hs
    exact ⟨s', hs', hss'.isDefault c ▸ hdefault⟩
  · rintro ⟨s', hs', hdefault⟩
    obtain ⟨s, hs, hss'⟩ := h.exists_left hs'
    exact ⟨s, hs, hss'.isDefault c ▸ hdefault⟩

theorem tableGroups (h : o.Reorders o') :
    (o.flatMap (·.tableGroups)).Perm (o'.flatMap (·.tableGroups)) := by
  obtain ⟨u, hpaired, hperm⟩ := h
  apply List.Perm.trans _ (hperm.flatMap_right _)
  induction hpaired generalizing o' with
  | nil => exact .refl _
  | cons hs _ ih => exact hs.tableGroups.append (ih (.refl _))

/-- As one schema at most answers to a name, lookups find the same in any order. -/
theorem alike (h : o.Reorders o') (apart : o.Pairwise Schema.Apart) : Alike c o o' := by
  obtain ⟨u, hpaired, hperm⟩ := h
  apply alike_of_find?
  intro name
  rw [map_eq_of_paired hpaired fun _ _ hs => hs.outward]
  apply find?_eq_of_perm (hperm.map _)
  have hinfos : u.map (·.toSchemaInfo) = o.map (·.toSchemaInfo) :=
    (map_eq_of_paired hpaired fun _ _ hs => hs.info.symm).symm
  exact List.pairwise_map.mpr ((pairwise_apart_of_infos hinfos apart).imp fun hne => hne name)

end Outline.Reorders

/-! Bundles. -/

namespace Bundle.Reorders

variable {b b' : Bundle} (h : b.Reorders b') (c : Config)

include h

theorem routed : b.routed.Perm b'.routed := by
  unfold Bundle.routed
  rw [h.tables]
  have htags := (h.tags.map Item.tag).append_left (b.tables.map Item.table)
  exact ((htags.append (h.refs.map _)).append (h.enums.map _)).append (h.tableGroups.map _)

theorem implied : (b.implied c).Perm (b'.implied c) := by
  unfold Bundle.implied
  rw [h.schemas, List.perm_ext_iff_of_nodup (nodup_eraseDups _) (nodup_eraseDups _)]
  intro name
  rw [List.mem_eraseDups, List.mem_eraseDups]
  exact ((h.routed.map _).filter _).mem_iff

theorem roster : (b.roster c).Perm (b'.roster c) := by
  unfold Bundle.roster
  rw [h.schemas]
  exact ((h.implied c).map _).append_left _

theorem gather (s : Schema) : (b.gather c s).Reorders (b'.gather c s) where
  info := rfl
  tables := by
    unfold Bundle.gather
    rw [h.tables]
  refs := (h.refs.filter _).append_left _
  enums := (h.enums.filter _).append_left _
  tags := (h.tags.filter _).append_left _
  tableGroups := (h.tableGroups.filter _).append_left _

theorem outline : (b.outline c).Reorders (b'.outline c) := by
  refine ⟨(b.roster c).map (b'.gather c), ?_, (h.roster c).map _⟩
  rw [Bundle.outline, List.forall₂_map_left_iff, List.forall₂_map_right_iff, List.forall₂_same]
  exact fun s _ => h.gather c s

end Bundle.Reorders

theorem Bundle.Valid.reorder {b b' : Bundle} {c : Config} (hv : b.Valid c) (h : b.Reorders b') :
    b'.Valid c := by
  have houtline := h.outline c
  have halike : Outline.Alike c (b.outline c) (b'.outline c) :=
    houtline.alike (apart_outline hv.apart)
  constructor
  · exact h.schemas ▸ hv.apart
  · intro s' hs'
    obtain ⟨s, hs, hss'⟩ := houtline.exists_left hs'
    exact hss'.distinct (hv.distinct s hs)
  · intro pre s post hsplit
    exact hv.nested pre s post (h.schemas ▸ hsplit)
  · exact fun r hr => halike.connects (hv.connects r (h.refs.mem_iff.mpr hr))
  · exact fun g hg => halike.gathers (hv.gathers g (h.tableGroups.mem_iff.mpr hg))
  · intro s' hs'
    obtain ⟨s, hs, hss'⟩ := houtline.exists_left hs'
    have hpair := (hss'.refs.pairwise_iff fun hne hsame => hne hsame.symm).mp (hv.refsApart s hs)
    exact hpair.imp fun hne hsame => hne (halike.symm.sameEnds hsame)
  · have hpair := (houtline.tableGroups.pairwise_iff Outline.groupsApart_symm).mp hv.groupsApart
    apply hpair.imp
    intro g g' hne
    rw [← halike.members_eq, ← halike.members_eq]
    exact hne
  · intro k
    rw [← houtline.withImpliedTags.extent k]
    exact hv.room k

/-- No record stands in the way of another one just because it comes first. -/
theorem Bundle.Reorders.valid_iff {b b' : Bundle} (h : b.Reorders b') (c : Config) :
    b.Valid c ↔ b'.Valid c :=
  ⟨fun hv => hv.reorder h, fun hv => hv.reorder h.symm⟩

end Decl

end Catalog
