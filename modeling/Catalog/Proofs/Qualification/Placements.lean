import Catalog.Proofs.Validity

/-!
The records of a bundle in the order in which they are placed, each with the name of its schema. A
record clashes with an earlier one of the same sort and name in the same schema, and the first one
that clashes is found from the schemas as they stand when its turn comes.
-/
namespace Catalog.Decl

/-- Two records are of one sort and have one name. -/
def Item.SameLabel (r r' : Item) : Prop :=
  ∃ label, r.label? = some label ∧ r'.label? = some label

/-- Records are told apart by their labels. -/
def LabelsApart (rs : List Item) : Prop :=
  rs.Pairwise fun r r' => ¬ r.SameLabel r'

theorem LabelsApart.perm {rs rs' : List Item} (h : LabelsApart rs) (hperm : rs.Perm rs') :
    LabelsApart rs' := by
  apply (hperm.pairwise_iff _).mp h
  rintro r r' hne ⟨label, h, h'⟩
  exact hne ⟨label, h', h⟩

namespace Schema

/-- The name of a record if it is of some sort. -/
def nameOf? (sort : ChildSort) (r : Item) : Option String :=
  r.label?.bind fun label => if label.1 = sort then some label.2 else none

theorem nameOf?_eq_some_iff {sort : ChildSort} {r : Item} {own : String} :
    nameOf? sort r = some own ↔ r.label? = some (sort, own) := by
  unfold nameOf?
  rcases r.label? with _ | ⟨sort', own'⟩ <;> simp

theorem names_eq_filterMap (s : Schema) (sort : ChildSort) :
    s.names sort = s.records.filterMap (nameOf? sort) := by
  cases sort <;>
    simp [names, records, List.filterMap_append, List.filterMap_map, Function.comp_def, nameOf?,
      Item.label?]

theorem mem_names_iff {s : Schema} {sort : ChildSort} {own : String} :
    own ∈ s.names sort ↔ ∃ r ∈ s.records, r.label? = some (sort, own) := by
  simp only [names_eq_filterMap, List.mem_filterMap, nameOf?_eq_some_iff]

theorem Distinct.labelsApart {s : Schema} (h : s.Distinct) : LabelsApart s.records := by
  apply List.pairwise_iff_forall_sublist.mpr
  rintro r r' hpair ⟨⟨sort, own⟩, hr, hr'⟩
  have hnames := hpair.filterMap (nameOf? sort)
  rw [← names_eq_filterMap] at hnames
  have hn := hnames.nodup (h.names sort)
  simp [nameOf?_eq_some_iff.mpr hr, nameOf?_eq_some_iff.mpr hr'] at hn

theorem grows_foldl_add (s : Schema) (rs : List Item) : s.Grows (rs.foldl add s) := by
  rw [foldl_add]
  constructor <;> simp

theorem records_foldl_add (s : Schema) (rs : List Item) :
    (rs.foldl add s).records.Perm (s.records ++ rs) := by
  induction rs generalizing s with
  | nil => simp
  | cons r rs ih =>
    have hadd : (s.add r).records.Perm (s.records ++ [r]) := by
      rw [List.perm_iff_count]
      intro r'
      cases r <;> simp only [add, records, List.map_append, List.count_append, List.map_cons,
        List.map_nil] <;> omega
    apply (ih (s.add r)).trans
    rw [← List.singleton_append, ← List.append_assoc]
    exact hadd.append_right rs

end Schema

/-- A record and the name of the schema that it is placed in. -/
structure Placement where
  record : Item
  schema : String
  /-- The record is part of the declaration of its schema. -/
  nested : Bool

/-- Two records of one sort and name in one schema. -/
def Placement.Rivals (p q : Placement) : Prop :=
  p.schema = q.schema ∧ p.record.SameLabel q.record

def Schema.placement (s : Schema) (r : Item) : Placement where
  record := r
  schema := s.name
  nested := true

def Schema.placements (s : Schema) : List Placement :=
  s.records.map s.placement

namespace Bundle

/-- The name of the schema that a record outside of schema declarations goes to: of the one that
its target is a name or an alias of, or else the target itself. -/
def home (b : Bundle) (c : Config) (r : Item) : String :=
  ((b.schemas.find? (·.isNamed (r.target c))).map (·.name)).getD (r.target c)

def placement (b : Bundle) (c : Config) (r : Item) : Placement where
  record := r
  schema := b.home c r
  nested := false

/-- The records of a bundle in the order in which they are placed. -/
def placements (b : Bundle) (c : Config) : List Placement :=
  b.schemas.flatMap (·.placements) ++ b.routed.map (b.placement c)

/-- The first record that has a rival before it. -/
def FirstRival (b : Bundle) (c : Config) (p : Placement) : Prop :=
  ∃ pre post, b.placements c = pre ++ p :: post ∧ (∃ q ∈ pre, q.Rivals p) ∧
    pre.Pairwise fun q q' => ¬ q.Rivals q'

end Bundle

/-! Nested records. -/

section Nested

variable {b : Bundle} {c : Config} {ss ss' : List Schema} {s : Schema} {rs rs' : List Item}
  {rec : Item} {sort : ChildSort} {own : String}

theorem Schema.Apart.name_ne {s t : Schema} (h : s.Apart t) : s.name ≠ t.name :=
  fun heq => h t.name ⟨heq ▸ s.isNamed_name, t.isNamed_name⟩

theorem Schema.pairwise_placement (s : Schema) (h : LabelsApart rs) :
    (rs.map s.placement).Pairwise fun q q' => ¬ q.Rivals q' :=
  List.pairwise_map.mpr (h.imp fun hne hrivals => hne hrivals.2)

theorem Schema.pairwise_flatMap_placements (apart : ss.Pairwise Schema.Apart)
    (h : ∀ s ∈ ss, LabelsApart s.records) :
    (ss.flatMap (·.placements)).Pairwise fun q q' => ¬ q.Rivals q' := by
  apply List.pairwise_flatMap.mpr
  refine ⟨fun s hs => s.pairwise_placement (h s hs), ?_⟩
  apply apart.imp
  rintro s t hst _ hp _ hq ⟨hschema, -⟩
  obtain ⟨r, -, rfl⟩ := List.mem_map.mp hp
  obtain ⟨r', -, rfl⟩ := List.mem_map.mp hq
  exact hst.name_ne hschema

/-- A nested record whose name is taken is the first one that has a rival. -/
theorem Bundle.firstRival_of_nested (hschemas : b.schemas = ss ++ s :: ss')
    (hrecords : s.records = rs ++ rec :: rs') (apart : (ss ++ [s]).Pairwise Schema.Apart)
    (hdistinct : ∀ t ∈ ss, t.Distinct) (hadded : (rs.foldl Schema.add s.header).Distinct)
    (hlabel : rec.label? = some (sort, own))
    (hown : own ∈ (rs.foldl Schema.add s.header).names sort) :
    b.FirstRival c (s.placement rec) := by
  have hperm : (rs.foldl Schema.add s.header).records.Perm rs :=
    (Schema.records_foldl_add s.header rs).trans (.of_eq (List.nil_append rs))
  obtain ⟨hss, -, hs⟩ := List.pairwise_append.mp apart
  refine ⟨ss.flatMap (·.placements) ++ rs.map s.placement,
    rs'.map s.placement ++ ss'.flatMap (·.placements) ++ b.routed.map (b.placement c), ?_, ?_, ?_⟩
  · simp [placements, hschemas, Schema.placements, hrecords]
  · obtain ⟨q, hq, hqlabel⟩ := Schema.mem_names_iff.mp hown
    refine ⟨s.placement q, ?_, rfl, (sort, own), hqlabel, hlabel⟩
    exact List.mem_append_right _ (List.mem_map_of_mem (hperm.mem_iff.mp hq))
  · apply List.pairwise_append.mpr
    refine ⟨Schema.pairwise_flatMap_placements hss fun t ht => (hdistinct t ht).labelsApart,
      s.pairwise_placement (hadded.labelsApart.perm hperm), ?_⟩
    rintro _ hp _ hq ⟨hschema, -⟩
    obtain ⟨t, ht, hp⟩ := List.mem_flatMap.mp hp
    obtain ⟨r, -, rfl⟩ := List.mem_map.mp hp
    obtain ⟨r', -, rfl⟩ := List.mem_map.mp hq
    exact (hs t ht s List.mem_cons_self).name_ne hschema

end Nested

/-! Records outside of schema declarations. -/

section Routed

variable {b : Bundle} {c : Config} {rs rs' : List Item} {rec q : Item} {sort : ChildSort}
  {own : String}

/-- The schemas that have been declared or mentioned so far. -/
def Bundle.known (b : Bundle) (c : Config) (rs : List Item) : Outline :=
  (rs.map (·.target c)).foldl (Outline.arrive c) b.schemas

theorem Bundle.schemas_subset_known : b.schemas ⊆ b.known c rs := by
  rw [known, Outline.foldl_arrive]
  exact List.subset_append_left _ _

/-- A record goes to the schema that is called its home, declared or not. -/
theorem Bundle.exists_home (hq : q ∈ rs) :
    ∃ t ∈ b.known c rs, t.isNamed (q.target c) = true ∧ t.name = b.home c q := by
  unfold home
  cases hfind : b.schemas.find? (·.isNamed (q.target c)) with
  | some t =>
    exact ⟨t, schemas_subset_known (List.mem_of_find?_eq_some hfind),
      List.find?_some (p := fun t : Schema => t.isNamed (q.target c)) hfind, rfl⟩
  | none =>
    refine ⟨c.impliedSchema (q.target c), ?_, (c.isNamed_impliedSchema _ _).mpr rfl, rfl⟩
    rw [known, Outline.foldl_arrive]
    apply List.mem_append_right
    apply List.mem_map_of_mem
    rw [List.mem_eraseDups, List.mem_filter]
    refine ⟨List.mem_map_of_mem hq, ?_⟩
    simpa using List.find?_eq_none.mp hfind

theorem Bundle.eq_home (apart : b.schemas.Pairwise Schema.Apart) {t : Schema}
    (ht : t ∈ b.known c rs) (htn : t.isNamed (q.target c) = true) : t.name = b.home c q := by
  unfold home
  cases hfind : b.schemas.find? (·.isNamed (q.target c)) with
  | some t' =>
    have hknown : (b.known c rs).Pairwise Schema.Apart := Outline.apart_arrives apart _
    have ht' : t' ∈ b.known c rs := schemas_subset_known (List.mem_of_find?_eq_some hfind)
    have htn' := List.find?_some (p := fun t : Schema => t.isNamed (q.target c)) hfind
    by_contra hne
    exact hknown.forall ht ht' (fun heq => hne (congrArg (·.name) heq)) (q.target c) ⟨htn, htn'⟩
  | none =>
    rw [known, Outline.foldl_arrive] at ht
    rcases List.mem_append.mp ht with ht | ht
    · exact absurd htn (List.find?_eq_none.mp hfind t ht)
    · obtain ⟨name, -, rfl⟩ := List.mem_map.mp ht
      exact (c.isNamed_impliedSchema name _).mp htn

/-- The records that a schema holds once others have been routed. -/
def Bundle.held (c : Config) (rs : List Item) (t : Schema) : List Item :=
  t.records ++ rs.filter fun r => t.isNamed (r.target c)

theorem Bundle.mem_foldl_route {s : Schema} :
    s ∈ rs.foldl (Outline.route c) b.schemas ↔ ∃ t ∈ b.known c rs,
      (rs.filter fun r => t.isNamed (r.target c)).foldl Schema.add t = s := by
  rw [Outline.foldl_route, List.mem_map, known]

theorem Bundle.labelsApart_held
    (hdistinct : ∀ s ∈ rs.foldl (Outline.route c) b.schemas, s.Distinct) {t : Schema}
    (ht : t ∈ b.known c rs) : LabelsApart (held c rs t) :=
  (hdistinct _ (mem_foldl_route.mpr ⟨t, ht, rfl⟩)).labelsApart.perm (Schema.records_foldl_add t _)

/-- What has been placed so far has no rivals if every schema tells its records apart. -/
theorem Bundle.pairwise_placements (apart : b.schemas.Pairwise Schema.Apart)
    (hheld : ∀ t ∈ b.known c rs, LabelsApart (held c rs t)) :
    (b.schemas.flatMap (·.placements) ++ rs.map (b.placement c)).Pairwise
      fun q q' => ¬ q.Rivals q' := by
  have hknown : (b.known c rs).Pairwise Schema.Apart := Outline.apart_arrives apart _
  have eq_of_name : ∀ t ∈ b.known c rs, ∀ t' ∈ b.known c rs, t.name = t'.name → t = t' := by
    intro t ht t' ht' heq
    by_contra hne
    exact (hknown.forall ht ht' hne).name_ne heq
  apply List.pairwise_append.mpr
  refine ⟨?_, ?_, ?_⟩
  · apply Schema.pairwise_flatMap_placements apart
    intro t ht
    exact (List.pairwise_append.mp (hheld t (schemas_subset_known ht))).1
  · apply List.pairwise_map.mpr
    apply List.pairwise_iff_forall_sublist.mpr
    rintro r r' hpair ⟨hschema, hlabel⟩
    have hr : r ∈ rs := hpair.subset (by simp)
    have hr' : r' ∈ rs := hpair.subset (by simp)
    obtain ⟨t, ht, htn, hhome⟩ := exists_home (b := b) (c := c) hr
    obtain ⟨t', ht', htn', hhome'⟩ := exists_home (b := b) (c := c) hr'
    obtain rfl := eq_of_name t ht t' ht' (hhome.trans (hschema.trans hhome'.symm))
    have hmine := hpair.filter fun r => t.isNamed (r.target c)
    have hboth : [r, r'].filter (fun r => t.isNamed (r.target c)) = [r, r'] := by
      simp [htn, htn']
    rw [hboth] at hmine
    have hapart := (List.pairwise_append.mp (hheld t ht)).2.1
    exact List.pairwise_iff_forall_sublist.mp hapart hmine hlabel
  · rintro _ hp _ hq ⟨hschema, hlabel⟩
    obtain ⟨s, hs, hp⟩ := List.mem_flatMap.mp hp
    obtain ⟨r, hr, rfl⟩ := List.mem_map.mp hp
    obtain ⟨r', hr', rfl⟩ := List.mem_map.mp hq
    obtain ⟨t, ht, htn, hhome⟩ := exists_home (b := b) (c := c) hr'
    obtain rfl := eq_of_name s (schemas_subset_known hs) t ht (hschema.trans hhome.symm)
    exact (List.pairwise_append.mp (hheld s ht)).2.2 r hr r' (List.mem_filter.mpr ⟨hr', htn⟩) hlabel

/-- A record outside of schema declarations whose name is taken is the first one that has a
rival. -/
theorem Bundle.firstRival_of_routed (hrouted : b.routed = rs ++ rec :: rs')
    (apart : b.schemas.Pairwise Schema.Apart)
    (hdistinct : ∀ s ∈ rs.foldl (Outline.route c) b.schemas, s.Distinct) {s : Schema}
    (hs : s ∈ rs.foldl (Outline.route c) b.schemas) (hsn : s.isNamed (rec.target c) = true)
    (hlabel : rec.label? = some (sort, own)) (hown : own ∈ s.names sort) :
    s.name = b.home c rec ∧ b.FirstRival c (b.placement c rec) := by
  obtain ⟨t, ht, rfl⟩ := mem_foldl_route.mp hs
  have hgrows := t.grows_foldl_add (rs.filter fun r => t.isNamed (r.target c))
  have htn : t.isNamed (rec.target c) = true := (hgrows.isNamed _).symm.trans hsn
  have hhome : t.name = b.home c rec := eq_home apart ht htn
  refine ⟨hgrows.name.trans hhome, b.schemas.flatMap (·.placements) ++ rs.map (b.placement c),
    rs'.map (b.placement c), ?_, ?_,
    pairwise_placements apart fun t ht => labelsApart_held hdistinct ht⟩
  · simp [placements, hrouted]
  · obtain ⟨q, hq, hqlabel⟩ := Schema.mem_names_iff.mp hown
    rcases List.mem_append.mp ((Schema.records_foldl_add t _).mem_iff.mp hq) with hq | hq
    · rw [known, Outline.foldl_arrive] at ht
      rcases List.mem_append.mp ht with ht | ht
      · exact ⟨t.placement q, List.mem_append_left _ (List.mem_flatMap.mpr
          ⟨t, ht, List.mem_map_of_mem hq⟩), hhome, (sort, own), hqlabel, hlabel⟩
      · obtain ⟨name, -, rfl⟩ := List.mem_map.mp ht
        cases hq
    · obtain ⟨hq, hqn⟩ := List.mem_filter.mp hq
      refine ⟨b.placement c q, List.mem_append_right _ (List.mem_map_of_mem hq), ?_,
        (sort, own), hqlabel, hlabel⟩
      exact (eq_home apart ht hqn).symm.trans hhome

end Routed

end Catalog.Decl
