import Catalog.Proofs.Outline.Sound

/-!
Sound outlines step by step: records are placed in schemas, schemas are declared or mentioned, tags
that tables mention are added.
-/
namespace Catalog.Decl

namespace Item

/-- The name by which a record is told apart from others of its sort. -/
def label? : Item → Option (ChildSort × String)
  | table d => some (.table, d.name)
  | tag d => some (.tag, d.name)
  | enum d => some (.enum, d.name)
  | ref _ => none
  | tableGroup d => some (.tableGroup, d.name)

def token : Item → Span
  | table d => d.token
  | tag d => d.token
  | enum d => d.token
  | ref d => d.token
  | tableGroup d => d.token

/-- The tables and fields that a record names are there. -/
def Links (c : Config) (o : Outline) : Item → Prop
  | ref d => o.Connects c d
  | tableGroup d => o.Gathers c d
  | _ => True

/-- The names in a record differ from one another. -/
def Distinct : Item → Prop
  | table d => (d.fields.map (·.name)).Nodup
  | enum d => (d.values.map (·.name)).Nodup
  | _ => True

/-- No record of a schema stands in the way of another one. -/
structure Fits (c : Config) (o : Outline) (s : Schema) (r : Item) : Prop where
  links : r.Links c o
  distinct : r.Distinct
  label : ∀ sort name, r.label? = some (sort, name) → name ∉ s.names sort
  ends : ∀ d, r = .ref d → ∀ d' ∈ s.refs, ¬ o.SameEnds c d d'
  tables : ∀ g, r = .tableGroup g → ∀ p ∈ o.members c g, ∀ s' ∈ o, ∀ g' ∈ s'.tableGroups,
    p ∉ o.members c g'

end Item

theorem Schema.names_add {s : Schema} {r : Item} {sort : ChildSort} {name : String}
    (h : r.label? = some (sort, name)) : (s.add r).names sort = s.names sort ++ [name] := by
  cases r <;> simp [Item.label?] at h <;> obtain ⟨rfl, rfl⟩ := h <;> simp [Schema.add, Schema.names]

theorem Schema.Distinct.names {s : Schema} (h : s.Distinct) (sort : ChildSort) :
    (s.names sort).Nodup := by
  cases sort with
  | table => exact h.tables
  | enum => exact h.enums
  | tag => exact h.tags
  | tableGroup => exact h.tableGroups

theorem Schema.Distinct.add {s : Schema} {r : Item} (h : s.Distinct) (hr : r.Distinct)
    (hname : ∀ sort name, r.label? = some (sort, name) → name ∉ s.names sort) :
    (s.add r).Distinct := by
  have push : ∀ sort name, r.label? = some (sort, name) → ((s.add r).names sort).Nodup := by
    intro sort name hl
    rw [Schema.names_add hl, List.nodup_append]
    refine ⟨h.names sort, by simp, ?_⟩
    rintro a ha b hb rfl
    exact hname sort name hl (List.mem_singleton.mp hb ▸ ha)
  cases r with
  | table d =>
    refine ⟨push .table d.name rfl, h.enums, h.tags, h.tableGroups, ?_, h.values⟩
    intro t ht
    rcases List.mem_append.mp ht with ht | ht
    · exact h.fields t ht
    · exact List.mem_singleton.mp ht ▸ hr
  | tag d => exact ⟨h.tables, h.enums, push .tag d.name rfl, h.tableGroups, h.fields, h.values⟩
  | enum d =>
    refine ⟨h.tables, push .enum d.name rfl, h.tags, h.tableGroups, h.fields, ?_⟩
    intro e he
    rcases List.mem_append.mp he with he | he
    · exact h.values e he
    · exact List.mem_singleton.mp he ▸ hr
  | ref d => exact ⟨h.tables, h.enums, h.tags, h.tableGroups, h.fields, h.values⟩
  | tableGroup d =>
    exact ⟨h.tables, h.enums, h.tags, push .tableGroup d.name rfl, h.fields, h.values⟩

namespace Outline

variable {c : Config} {o o' : Outline} {s : Schema} {name : String} {r : Item}

theorem pairwise_apart_of_infos (h : o'.map (·.toSchemaInfo) = o.map (·.toSchemaInfo))
    (apart : o.Pairwise Schema.Apart) : o'.Pairwise Schema.Apart := by
  have infos : (o.map (·.toSchemaInfo)).Pairwise fun s t =>
      ∀ name, ¬ (s.isNamed name = true ∧ t.isNamed name = true) :=
    List.pairwise_map.mpr apart
  rw [← h, List.pairwise_map] at infos
  exact infos

theorem infos_place (o : Outline) (name : String) (r : Item) :
    (o.place name r).map (·.toSchemaInfo) = o.map (·.toSchemaInfo) := by
  unfold place
  rw [List.map_map]
  apply List.map_congr_left
  intro s _
  simp only [Function.comp_apply]
  split
  · exact (s.grows_add r).info
  · rfl

theorem mem_place (h : o.Sound c) (hs : o.schema? name = some s) {t : Schema}
    (ht : t ∈ o.place name r) : t ∈ o ∨ t = s.add r := by
  obtain ⟨u, hu, rfl⟩ := List.mem_map.mp ht
  split
  · rename_i hun
    right
    obtain ⟨hsn, pre, post, rfl⟩ := split_of_schema? hs
    rw [h.eq_of_isNamed hu (by simp) hun hsn]
  · exact .inl hu

theorem mem_place_self (hs : o.schema? name = some s) : s.add r ∈ o.place name r := by
  obtain ⟨hsn, pre, post, rfl⟩ := split_of_schema? hs
  exact List.mem_map.mpr ⟨s, by simp, if_pos hsn⟩

theorem extent_place (apart : o.Pairwise Schema.Apart) (hs : o.schema? name = some s) (k : Kind) :
    (o.place name r).extent k = o.extent k + r.extent k := by
  obtain ⟨hsn, pre, post, rfl⟩ := split_of_schema? hs
  rw [place_of_split apart hsn, extent_append, extent_append]
  simp only [List.map_cons, List.sum_cons, Schema.extent_add]
  omega

/-- Placing a group adds it to the groups of all schemas, wherever it comes to stand. -/
theorem tableGroups_place (apart : o.Pairwise Schema.Apart) (hs : o.schema? name = some s)
    (g : TableGroup) : ((o.place name (.tableGroup g)).flatMap (·.tableGroups)).Perm
      (g :: o.flatMap (·.tableGroups)) := by
  obtain ⟨hsn, pre, post, rfl⟩ := split_of_schema? hs
  rw [place_of_split apart hsn]
  simp only [List.flatMap_append, List.flatMap_cons, Schema.add, List.append_assoc,
    List.singleton_append]
  rw [← List.append_assoc, ← List.append_assoc]
  exact List.perm_middle

theorem groupsApart_symm {g g' : TableGroup}
    (h : ∀ p ∈ o.members c g, p ∉ o.members c g') : ∀ p ∈ o.members c g', p ∉ o.members c g :=
  fun p hp hp' => h p hp' hp

theorem tableGroups_place_of_add (o : Outline) (name : String)
    (hr : ∀ t : Schema, (t.add r).tableGroups = t.tableGroups) :
    (o.place name r).flatMap (·.tableGroups) = o.flatMap (·.tableGroups) := by
  unfold Outline.place
  rw [List.flatMap_map]
  congr 1
  funext t
  split
  · exact hr t
  · rfl

theorem distinct_place (h : o.Sound c) (hs : o.schema? name = some s) (hr : r.Fits c o s) :
    ∀ t ∈ o.place name r, t.Distinct := by
  intro t ht
  rcases mem_place h hs ht with ht | rfl
  · exact h.distinct t ht
  · exact (h.distinct s (List.mem_of_find?_eq_some hs)).add hr.distinct hr.label

/-- A record that is neither a ref nor a group needs no more than a name of its own. -/
theorem Sound.place_plain (h : o.Sound c) (hs : o.schema? name = some s) (hr : r.Fits c o s)
    (room : (o.place name r).HasRoom c) (hrefs : (s.add r).refs = s.refs)
    (hgroups : ∀ t : Schema, (t.add r).tableGroups = t.tableGroups) :
    (o.place name r).Sound c := by
  apply h.extend (grows_place o name r) (pairwise_apart_of_infos (infos_place o name r) h.apart)
    (distinct_place h hs hr) _ (tableGroups_place_of_add o name hgroups) room
  intro t ht
  rcases mem_place h hs ht with ht | rfl
  · exact .inr ⟨t, ht, rfl⟩
  · exact .inr ⟨s, List.mem_of_find?_eq_some hs, hrefs⟩

theorem Sound.place_ref (h : o.Sound c) (hs : o.schema? name = some s) {d : Ref}
    (hr : (Item.ref d).Fits c o s) (room : (o.place name (.ref d)).HasRoom c) :
    (o.place name (.ref d)).Sound c := by
  have hg := grows_place o name (.ref d)
  have hso : s ∈ o := List.mem_of_find?_eq_some hs
  have hgroups := tableGroups_place_of_add (r := .ref d) o name fun _ => rfl
  have connects : ∀ t ∈ o.place name (.ref d), ∀ d' ∈ t.refs, o.Connects c d' := by
    intro t ht d' hd'
    rcases mem_place h hs ht with ht | rfl
    · exact h.connects t ht d' hd'
    · rcases List.mem_append.mp hd' with hd' | hd'
      · exact h.connects s hso d' hd'
      · exact List.mem_singleton.mp hd' ▸ hr.links
  have refsApart : ∀ t ∈ o.place name (.ref d),
      t.refs.Pairwise fun d d' => ¬ o.SameEnds c d d' := by
    intro t ht
    rcases mem_place h hs ht with ht | rfl
    · exact h.refsApart t ht
    · apply List.pairwise_append.mpr
      refine ⟨h.refsApart s hso, List.pairwise_singleton _ _, ?_⟩
      intro d' hd' d'' hd'' hsame
      rw [List.mem_singleton.mp hd''] at hsame
      exact hr.ends d rfl d' hd' hsame.symm
  refine ⟨pairwise_apart_of_infos (infos_place o name _) h.apart, distinct_place h hs hr,
    fun t ht d' hd' => (connects t ht d' hd').of_grows hg, ?_, ?_, ?_, room⟩
  · intro t ht g hgt
    have hmem := hgroups ▸ List.mem_flatMap.mpr ⟨t, ht, hgt⟩
    exact (h.gathers_of_mem hmem).of_grows hg
  · intro t ht
    exact (refsApart_iff_of_grows hg (connects t ht)).mp (refsApart t ht)
  · rw [hgroups]
    exact (groupsApart_iff_of_grows hg fun _ hgm => h.gathers_of_mem hgm).mp h.groupsApart

theorem Sound.place_tableGroup (h : o.Sound c) (hs : o.schema? name = some s) {g : TableGroup}
    (hr : (Item.tableGroup g).Fits c o s) (room : (o.place name (.tableGroup g)).HasRoom c) :
    (o.place name (.tableGroup g)).Sound c := by
  have hg := grows_place o name (.tableGroup g)
  have perm := tableGroups_place h.apart hs g
  have gathers : ∀ g' ∈ g :: o.flatMap (·.tableGroups), o.Gathers c g' := by
    intro g' hg'
    rcases List.mem_cons.mp hg' with rfl | hg'
    · exact hr.links
    · exact h.gathers_of_mem hg'
  have groupsApart : (g :: o.flatMap (·.tableGroups)).Pairwise fun g g' =>
      ∀ p ∈ o.members c g, p ∉ o.members c g' := by
    refine List.pairwise_cons.mpr ⟨?_, h.groupsApart⟩
    intro g' hg' p hp
    obtain ⟨t, ht, hgt⟩ := List.mem_flatMap.mp hg'
    exact hr.tables g rfl p hp t ht g' hgt
  have refsOf : ∀ t ∈ o.place name (.tableGroup g), ∃ u ∈ o, t.refs = u.refs := by
    intro t ht
    rcases mem_place h hs ht with ht | rfl
    · exact ⟨t, ht, rfl⟩
    · exact ⟨s, List.mem_of_find?_eq_some hs, rfl⟩
  refine ⟨pairwise_apart_of_infos (infos_place o name _) h.apart, distinct_place h hs hr,
    ?_, ?_, ?_, ?_, room⟩
  · intro t ht d hd
    obtain ⟨u, hu, heq⟩ := refsOf t ht
    exact (h.connects u hu d (heq ▸ hd)).of_grows hg
  · intro t ht g' hg'
    exact (gathers g' (perm.mem_iff.mp (List.mem_flatMap.mpr ⟨t, ht, hg'⟩))).of_grows hg
  · intro t ht
    obtain ⟨u, hu, heq⟩ := refsOf t ht
    rw [heq]
    exact (refsApart_iff_of_grows hg (h.connects u hu)).mp (h.refsApart u hu)
  · rw [perm.pairwise_iff fun hne => groupsApart_symm hne]
    exact (groupsApart_iff_of_grows hg gathers).mp groupsApart

/-- A record that fits keeps an outline sound. -/
theorem Sound.place (h : o.Sound c) (hs : o.schema? name = some s) (hr : r.Fits c o s)
    (room : (o.place name r).HasRoom c) : (o.place name r).Sound c := by
  cases r with
  | table d => exact h.place_plain hs hr room rfl fun _ => rfl
  | tag d => exact h.place_plain hs hr room rfl fun _ => rfl
  | enum d => exact h.place_plain hs hr room rfl fun _ => rfl
  | ref d => exact h.place_ref hs hr room
  | tableGroup g => exact h.place_tableGroup hs hr room

/-- A schema without records keeps an outline sound. -/
theorem Sound.declare (h : o.Sound c) {d : Schema} (apart : ∀ t ∈ o, t.Apart d)
    (room : Outline.HasRoom (o ++ [d.header]) c) : Outline.Sound c (o ++ [d.header]) := by
  apply h.extend (grows_append o _) _ _ _ _ room
  · apply List.pairwise_append.mpr
    refine ⟨h.apart, List.pairwise_singleton _ _, ?_⟩
    intro t ht u hu
    rw [List.mem_singleton.mp hu]
    exact apart t ht
  · intro t ht
    rcases List.mem_append.mp ht with ht | ht
    · exact h.distinct t ht
    · rw [List.mem_singleton.mp ht]
      exact Schema.distinct_header d
  · intro t ht
    rcases List.mem_append.mp ht with ht | ht
    · exact .inr ⟨t, ht, rfl⟩
    · exact .inl (by rw [List.mem_singleton.mp ht]; rfl)
  · simp [Schema.header]

/-- The schema that a new name stands for answers to the one name that no other schema does. -/
theorem apart_impliedSchema (hname : ¬ o.any (·.isNamed name) = true) :
    ∀ t ∈ o, t.Apart (c.impliedSchema name) := by
  intro t ht other hother
  rw [Config.isNamed_impliedSchema] at hother
  obtain ⟨htn, rfl⟩ := hother
  exact hname (List.any_eq_true.mpr ⟨t, ht, htn⟩)

theorem Sound.implyTags (h : o.Sound c)
    (room : Outline.HasRoom (o.map (·.withImpliedTags)) c) :
    Outline.Sound c (o.map (·.withImpliedTags)) := by
  apply h.extend (grows_map o fun s _ => s.grows_withImpliedTags) _ _ _ _ room
  · apply pairwise_apart_of_infos _ h.apart
    rw [List.map_map]
    rfl
  · intro t ht
    obtain ⟨s, hs, rfl⟩ := List.mem_map.mp ht
    exact (h.distinct s hs).withImpliedTags
  · intro t ht
    obtain ⟨s, hs, rfl⟩ := List.mem_map.mp ht
    exact .inr ⟨s, hs, rfl⟩
  · rw [List.flatMap_map]
    rfl

theorem sound_nil (c : Config) : Outline.Sound c [] := by
  refine ⟨.nil, by simp, by simp, by simp, by simp, by simp, ?_⟩
  intro k
  have lt : c.idBase.toNat < UInt32.size := c.idBase.toNat_lt
  simp only [extent, List.map_nil, List.sum_nil]
  split <;> omega

end Outline

end Catalog.Decl
