import Catalog.Export.Redeclare
import Catalog.Proofs.Tree
import Mathlib.Data.List.Induction

/-!
Declaring an export again. The schemas are those of the outline that was exported, with their tags
declared instead of implied and their members named after the tables that they are. Lookups see no
difference; a member leads back to its table unless an earlier table goes by the same name.
-/
namespace Catalog

/-! Lists without their repetitions. -/

section EraseDups

variable {α : Type} [DecidableEq α]

theorem eraseDups_sublist (l : List α) : l.eraseDups.Sublist l := by
  induction l using List.reverseRecOn with
  | nil => exact .slnil
  | append_singleton l y ih =>
    rw [eraseDups_concat]
    split
    · exact ih.trans (List.sublist_append_left _ _)
    · exact ih.append (List.Sublist.refl _)

theorem eraseDups_of_nodup {l : List α} (h : l.Nodup) : l.eraseDups = l := by
  induction l using List.reverseRecOn with
  | nil => rfl
  | append_singleton l y ih =>
    obtain ⟨hl, -, hdisjoint⟩ := List.nodup_append.mp h
    have hy : y ∉ l := fun hmem => hdisjoint y hmem y (List.mem_singleton_self y) rfl
    rw [eraseDups_concat, if_neg hy, ih hl]

theorem eq_some_of_filterMap_eq {f : α → Option α} {l : List α} (h : l.filterMap f = l) :
    ∀ x ∈ l, f x = some x := by
  induction l with
  | nil => simp
  | cons y l ih =>
    cases hy : f y with
    | none =>
      have hle := List.length_filterMap_le f l
      have hlen : (l.filterMap f).length = l.length + 1 := by
        rw [List.filterMap_cons, hy] at h
        exact congrArg List.length h
      omega
    | some z =>
      rw [List.filterMap_cons, hy] at h
      injection h with hz hrest
      intro x hx
      rcases List.mem_cons.mp hx with rfl | hx
      · rw [hy, hz]
      · exact ih hrest x hx

/-- A list whose elements are replaced keeps its length only if no two of them become the same. -/
theorem eraseDups_filterMap_eq_iff {f : α → Option α} {l : List α} (hl : l.Nodup) :
    (l.filterMap f).eraseDups = l ↔ ∀ x ∈ l, f x = some x := by
  constructor
  · intro h
    have hsub := eraseDups_sublist (l.filterMap f)
    have hle := List.length_filterMap_le f l
    have hself : (l.filterMap f).eraseDups = l.filterMap f := by
      apply hsub.eq_of_length_le
      rw [h]
      exact hle
    exact eq_some_of_filterMap_eq (hself.symm.trans h)
  · intro h
    have hself : l.filterMap f = l := by
      rw [List.filterMap_congr h]
      exact List.filterMap_some
    rw [hself, eraseDups_of_nodup hl]

end EraseDups

namespace Decl

/-- A schema as it is declared again from its export. -/
def Schema.redeclared (c : Config) (o : Outline) (s : Schema) : Schema :=
  (s.toExport c o).redeclare

def Outline.redeclared (c : Config) (o : Outline) : Outline :=
  o.map (·.redeclared c o)

/-- The names that the members of a group are exported with lead back to them. -/
def Outline.Returns (c : Config) (o : Outline) (g : TableGroup) : Prop :=
  ∀ p ∈ o.members c g, o.tablePath? c (some p.schema) p.table = some p

def Outline.Unshadowed (c : Config) (o : Outline) : Prop :=
  ∀ s ∈ o, ∀ g ∈ s.tableGroups, o.Returns c g

instance (c : Config) (o : Outline) (g : TableGroup) : Decidable (o.Returns c g) :=
  inferInstanceAs (Decidable (∀ p ∈ o.members c g, _))

instance (c : Config) (o : Outline) : Decidable (o.Unshadowed c) :=
  inferInstanceAs (Decidable (∀ s ∈ o, ∀ g ∈ s.tableGroups, o.Returns c g))

variable {c : Config} {o o' : Outline} {s : Schema}

/-! Schemas. -/

namespace Schema

theorem refs_redeclared (c : Config) (o : Outline) (s : Schema) :
    (s.redeclared c o).refs = s.refs.map fun r => r.toExport.redeclare := by
  simp [redeclared, toExport, Export.Schema.redeclare, Function.comp_def]

theorem tableGroups_redeclared (c : Config) (o : Outline) (s : Schema) :
    (s.redeclared c o).tableGroups = s.tableGroups.map fun g => (g.toExport c o).redeclare := by
  simp [redeclared, toExport, Export.Schema.redeclare, Function.comp_def]

theorem outward_redeclared (c : Config) (o : Outline) (s : Schema) :
    (s.redeclared c o).outward = s.outward := by
  simp [redeclared, outward, toExport, Export.Schema.redeclare, Table.outward, Table.toExport,
    Export.Table.redeclare, Function.comp_def]

theorem impliedTags_eq_nil {known : List String} {ms : List Mention}
    (h : ∀ m ∈ ms, m.name ∈ known) : impliedTags known ms = [] := by
  induction ms with
  | nil => rfl
  | cons m ms ih =>
    rw [impliedTags_cons, if_pos (h m List.mem_cons_self)]
    exact ih fun m' hm' => h m' (List.mem_cons_of_mem m hm')

/-- Every tag that a redeclared table mentions is declared. -/
theorem withImpliedTags_redeclared (c : Config) (o : Outline) (s : Schema) :
    (s.redeclared c o).withImpliedTags = s.redeclared c o := by
  have hknown : ∀ m ∈ (s.redeclared c o).tables.flatMap (·.tags),
      m.name ∈ (s.redeclared c o).tags.map (·.name) := by
    intro m hm
    obtain ⟨t', ht', hm⟩ := List.mem_flatMap.mp hm
    obtain ⟨e, he, rfl⟩ := List.mem_map.mp ht'
    obtain ⟨t, ht, rfl⟩ := List.mem_map.mp he
    obtain ⟨name, hname, rfl⟩ := List.mem_map.mp hm
    have htags : (s.redeclared c o).tags.map (·.name) = s.withImpliedTags.tags.map (·.name) := by
      simp [redeclared, toExport, Export.Schema.redeclare, Function.comp_def]
    have hmention : name ∈ (s.tables.flatMap (·.tags)).map (·.name) := by
      obtain ⟨m', hm', rfl⟩ := List.mem_map.mp (List.mem_eraseDups.mp hname)
      exact List.mem_map.mpr ⟨m', List.mem_flatMap.mpr ⟨t, ht, hm'⟩, rfl⟩
    rw [htags, withImpliedTags, List.map_append, List.mem_append, mem_impliedTags_name]
    by_cases hdeclared : name ∈ s.tags.map (·.name)
    · exact .inl hdeclared
    · exact .inr ⟨hdeclared, hmention⟩
  rw [withImpliedTags, impliedTags_eq_nil hknown, List.append_nil]

theorem names_redeclared (c : Config) (o : Outline) (s : Schema) (sort : ChildSort) :
    (s.redeclared c o).names sort = s.withImpliedTags.names sort := by
  cases sort <;> simp [redeclared, names, toExport, Export.Schema.redeclare, Function.comp_def,
    Table.toExport, Export.Table.redeclare, Enum.toExport, Export.Enum.redeclare,
    TableGroup.toExport, Export.TableGroup.redeclare, withImpliedTags]

theorem Distinct.redeclared (h : s.withImpliedTags.Distinct) :
    (s.redeclared c o).Distinct := by
  have hnames : ∀ sort, ((s.redeclared c o).names sort).Nodup := by
    intro sort
    rw [names_redeclared]
    exact h.names sort
  refine ⟨hnames .table, hnames .enum, hnames .tag, hnames .tableGroup, ?_, ?_⟩
  · intro t' ht'
    obtain ⟨e, he, rfl⟩ := List.mem_map.mp ht'
    obtain ⟨t, ht, rfl⟩ := List.mem_map.mp he
    have hnames : t.toExport.redeclare.fields.map (·.name) = t.fields.map (·.name) := by
      simp [Table.toExport, Export.Table.redeclare, Function.comp_def]
    rw [hnames]
    exact h.fields t ht
  · intro e' he'
    obtain ⟨e, he, rfl⟩ := List.mem_map.mp he'
    obtain ⟨d, hd, rfl⟩ := List.mem_map.mp he
    have hnames : d.toExport.redeclare.values.map (·.name) = d.values.map (·.name) := by
      simp [Enum.toExport, Export.Enum.redeclare, Function.comp_def]
    rw [hnames]
    exact h.values d hd

theorem extent_redeclared (c : Config) (o : Outline) (s : Schema) (k : Kind) :
    (s.redeclared c o).extent k = s.withImpliedTags.extent k := by
  have htable : ∀ d : Table, d.toExport.redeclare.extent k = d.extent k := by
    intro d
    cases k <;> simp [Table.extent, Table.toExport, Export.Table.redeclare, Index.toExport,
      Export.Index.redeclare, Function.comp_def]
  have henum : ∀ d : Enum, d.toExport.redeclare.extent k = d.extent k := by
    intro d
    cases k <;> simp [Enum.extent, Enum.toExport, Export.Enum.redeclare]
  have href : ∀ d : Ref, d.toExport.redeclare.extent k = d.extent k := by
    intro d
    cases k <;> simp [Ref.extent, Ref.toExport, Export.Ref.redeclare]
  simp [extent, records, redeclared, toExport, Export.Schema.redeclare, withImpliedTags,
    Function.comp_def, Item.extent, htable, henum, href]

theorem isPopulated_redeclared (c : Config) (o : Outline) (s : Schema) :
    (s.redeclared c o).isPopulated = s.isPopulated := by
  have htags : (s.redeclared c o).tags.isEmpty = s.withImpliedTags.tags.isEmpty := by
    rw [redeclared, toExport, Export.Schema.redeclare, List.isEmpty_map, List.isEmpty_map]
  rw [← isPopulated_withImpliedTags s, isPopulated_eq, isPopulated_eq, htags]
  simp [redeclared, toExport, Export.Schema.redeclare, withImpliedTags]

end Schema

namespace Outline

theorem alike_redeclared (c : Config) (o : Outline) : Alike c (o.redeclared c) o :=
  alike_map c o fun s _ => s.outward_redeclared c o

theorem withImpliedTags_redeclared (c : Config) (o : Outline) :
    (o.redeclared c).map (·.withImpliedTags) = o.redeclared c := by
  rw [redeclared, List.map_map]
  exact List.map_congr_left fun s _ => s.withImpliedTags_redeclared c o

theorem extent_redeclared (c : Config) (o : Outline) (k : Kind) :
    (o.redeclared c).extent k = Outline.extent (o.map (·.withImpliedTags)) k := by
  simp only [extent, redeclared, List.map_map, Function.comp_def, Schema.extent_redeclared]

/-! Groups. -/

theorem members_redeclared (h : Alike c o' o) (g : TableGroup) :
    o'.members c (g.toExport c o).redeclare = ((o.members c g).filterMap fun p =>
      o.tablePath? c (some p.schema) p.table).eraseDups := by
  rw [h.members_eq]
  simp only [members, TableGroup.toExport, Export.TableGroup.redeclare, List.map_map,
    List.filterMap_map, Function.comp_def]

theorem members_redeclared_eq_iff (h : Alike c o' o) (g : TableGroup) :
    o'.members c (g.toExport c o).redeclare = o.members c g ↔ o.Returns c g := by
  rw [members_redeclared h]
  exact eraseDups_filterMap_eq_iff (nodup_eraseDups _)

theorem toExport_redeclare_eq_iff (h : Alike c o' o) (g : TableGroup) :
    (g.toExport c o).redeclare.toExport c o' = g.toExport c o ↔ o.Returns c g := by
  have hinj : Function.Injective fun p : TablePath =>
      ({ tableName := p.table, schemaName := p.schema } : Export.Member) := by
    intro p q hpq
    injection hpq with htable hschema
    cases p
    cases q
    rw [TablePath.mk.injEq]
    exact ⟨hschema, htable⟩
  rw [← members_redeclared_eq_iff h g, ← (List.map_injective_iff.mpr hinj).eq_iff,
    TableGroup.toExport, Export.TableGroup.mk.injEq]
  exact ⟨fun heq => heq.2, fun heq => ⟨rfl, heq⟩⟩

end Outline

theorem Table.toExport_redeclare (d : Table) :
    d.toExport.redeclare.toExport = d.toExport := by
  have htags : ((d.tags.map (·.name)).eraseDups.map fun name =>
      (Mention.mk name {}).name).eraseDups = (d.tags.map (·.name)).eraseDups := by
    rw [List.map_id', eraseDups_of_nodup (nodup_eraseDups _)]
  simp only [toExport, Export.Table.redeclare, List.map_map, Function.comp_def, htags]
  simp [Index.toExport, Export.Index.redeclare, Function.comp_def]

/-- A redeclared schema is exported as before exactly if its groups lead back to their members. -/
theorem Schema.toExport_redeclared_iff (h : Outline.Alike c o' o) (s : Schema) :
    (s.redeclared c o).toExport c o' = s.toExport c o ↔ ∀ g ∈ s.tableGroups, o.Returns c g := by
  have hgroups : (s.redeclared c o).tableGroups.map (·.toExport c o')
      = s.tableGroups.map (·.toExport c o) ↔ ∀ g ∈ s.tableGroups, o.Returns c g := by
    rw [s.tableGroups_redeclared, List.map_map, List.map_inj_left]
    apply forall₂_congr
    intro g _
    exact Outline.toExport_redeclare_eq_iff h g
  have htables : (s.redeclared c o).tables.map (·.toExport) = s.tables.map (·.toExport) := by
    rw [redeclared, toExport, Export.Schema.redeclare, List.map_map, List.map_map]
    exact List.map_congr_left fun d _ => d.toExport_redeclare
  have henums : (s.redeclared c o).enums.map (·.toExport) = s.enums.map (·.toExport) := by
    simp [redeclared, toExport, Export.Schema.redeclare, Enum.toExport, Export.Enum.redeclare,
      Function.comp_def]
  have hrefs : (s.redeclared c o).refs.map (·.toExport) = s.refs.map (·.toExport) := by
    rw [s.refs_redeclared]
    simp [Ref.toExport, Export.Ref.redeclare, Function.comp_def]
  have htags : (s.redeclared c o).withImpliedTags.tags.map (·.toTagInfo)
      = s.withImpliedTags.tags.map (·.toTagInfo) := by
    rw [s.withImpliedTags_redeclared]
    simp [redeclared, toExport, Export.Schema.redeclare, Function.comp_def]
  rw [← hgroups]
  constructor
  · intro heq
    exact congrArg Export.Schema.tableGroups heq
  · intro heq
    rw [toExport, htables, henums, heq, hrefs, htags]
    rfl

/-! Whole outlines. -/

namespace Outline

theorem connects_redeclare {r : Ref} (h : o.Connects c r) :
    o.Connects c r.toExport.redeclare := by
  obtain ⟨e₁, e₂, hends, h₁, h₂, hlen, hne⟩ := h
  refine ⟨{ toEndpointInfo := e₁.toEndpointInfo }, { toEndpointInfo := e₂.toEndpointInfo }, ?_,
    h₁, h₂, hlen, hne⟩
  simp [Ref.toExport, Export.Ref.redeclare, hends]

theorem sameEnds_of_redeclare {r r' : Ref}
    (h : o.SameEnds c r.toExport.redeclare r'.toExport.redeclare) : o.SameEnds c r r' := by
  have ends : ∀ {r : Ref} {e₁ e₂ : Endpoint}, r.toExport.redeclare.endpoints = [e₁, e₂] →
      ∃ d₁ d₂, r.endpoints = [d₁, d₂] ∧ e₁.toEndpointInfo = d₁.toEndpointInfo ∧
        e₂.toEndpointInfo = d₂.toEndpointInfo := by
    intro r e₁ e₂ hends
    simp only [Ref.toExport, Export.Ref.redeclare, List.map_map] at hends
    obtain ⟨d₁, rest, hr, rfl, hrest⟩ := List.map_eq_cons_iff.mp hends
    obtain ⟨d₂, rest', rfl, rfl, hnil⟩ := List.map_eq_cons_iff.mp hrest
    obtain rfl := List.map_eq_nil_iff.mp hnil
    exact ⟨d₁, d₂, hr, rfl, rfl⟩
  obtain ⟨e₁, e₂, e₁', e₂', hends, hends', hsame⟩ := h
  obtain ⟨d₁, d₂, hr, h₁, h₂⟩ := ends hends
  obtain ⟨d₁', d₂', hr', h₁', h₂'⟩ := ends hends'
  rw [h₁, h₂, h₁', h₂'] at hsame
  exact ⟨d₁, d₂, d₁', d₂', hr, hr', hsame⟩

theorem gathers_redeclare {g : TableGroup} (h : o.Returns c g) :
    o.Gathers c (g.toExport c o).redeclare := by
  intro m hm
  obtain ⟨e, he, rfl⟩ := List.mem_map.mp hm
  obtain ⟨p, hp, rfl⟩ := List.mem_map.mp he
  exact Option.isSome_iff_exists.mpr ⟨p, h p hp⟩

theorem flatMap_tableGroups_redeclared (c : Config) (o : Outline) :
    (o.redeclared c).flatMap (·.tableGroups)
      = (o.flatMap (·.tableGroups)).map fun g => (g.toExport c o).redeclare := by
  rw [redeclared, List.flatMap_map, List.map_flatMap]
  congr 1
  funext s
  exact s.tableGroups_redeclared c o

/-- An outline of which a database can be built is so again when it is redeclared. -/
theorem Sound.redeclared (h : Outline.Sound c (o.map (·.withImpliedTags)))
    (hun : o.Unshadowed c) : (o.redeclared c).Sound c := by
  have halike := alike_redeclared c o
  have hmem : ∀ s ∈ o, s.withImpliedTags ∈ o.map (·.withImpliedTags) :=
    fun s hs => List.mem_map.mpr ⟨s, hs, rfl⟩
  have himplied := alike_withImpliedTags c o
  constructor
  · apply pairwise_apart_of_infos _ h.apart
    rw [Outline.redeclared, List.map_map, List.map_map]
    rfl
  · intro s' hs'
    obtain ⟨s, hs, rfl⟩ := List.mem_map.mp hs'
    exact (h.distinct _ (hmem s hs)).redeclared
  · intro s' hs' r' hr'
    obtain ⟨s, hs, rfl⟩ := List.mem_map.mp hs'
    obtain ⟨e, he, rfl⟩ := List.mem_map.mp hr'
    obtain ⟨r, hr, rfl⟩ := List.mem_map.mp he
    have hconnects := himplied.connects (h.connects _ (hmem s hs) r hr)
    exact halike.symm.connects (connects_redeclare hconnects)
  · intro s' hs' g' hg'
    obtain ⟨s, hs, rfl⟩ := List.mem_map.mp hs'
    obtain ⟨e, he, rfl⟩ := List.mem_map.mp hg'
    obtain ⟨g, hg, rfl⟩ := List.mem_map.mp he
    exact halike.symm.gathers (gathers_redeclare (hun s hs g hg))
  · intro s' hs'
    obtain ⟨s, hs, rfl⟩ := List.mem_map.mp hs'
    rw [s.refs_redeclared, List.pairwise_map]
    apply (h.refsApart _ (hmem s hs)).imp
    intro r r' hne hsame
    exact hne (himplied.symm.sameEnds (sameEnds_of_redeclare (halike.sameEnds hsame)))
  · have hpair := h.groupsApart
    rw [List.flatMap_map] at hpair
    rw [flatMap_tableGroups_redeclared, List.pairwise_map]
    apply hpair.imp_of_mem
    intro g g' hg hg' hne
    obtain ⟨s, hs, hgs⟩ := List.mem_flatMap.mp hg
    obtain ⟨s', hs', hgs'⟩ := List.mem_flatMap.mp hg'
    rw [(members_redeclared_eq_iff halike g).mpr (hun s hs g hgs),
      (members_redeclared_eq_iff halike g').mpr (hun s' hs' g' hgs'), ← himplied.members_eq,
      ← himplied.members_eq]
    exact hne
  · intro k
    rw [extent_redeclared]
    exact h.room k

end Outline

/-! The bundle of an export. -/

namespace Bundle

variable {b : Bundle}

theorem schemas_redeclare_tree (b : Bundle) (c : Config) :
    (b.tree c).redeclare.schemas = (b.outline c).redeclared c := by
  rw [Export.Tree.redeclare, tree, List.map_map]
  rfl

theorem outline_redeclare_tree (b : Bundle) (c : Config) :
    (b.tree c).redeclare.outline c = (b.outline c).redeclared c := by
  have hgather : ∀ s, (b.tree c).redeclare.gather c s = s := by
    intro s
    simp [gather, Export.Tree.redeclare]
  have hroster : (b.tree c).redeclare.roster c = (b.tree c).redeclare.schemas := by
    simp [roster, implied, routed, Export.Tree.redeclare]
  rw [outline, hroster, ← schemas_redeclare_tree]
  conv_rhs => rw [← List.map_id (b.tree c).redeclare.schemas]
  exact List.map_congr_left fun s _ => hgather s

/-- Exporting a bundle and declaring the export again changes nothing but shadowed members. -/
theorem tree_redeclare_iff (b : Bundle) (c : Config) :
    (b.tree c).redeclare.tree c = b.tree c ↔ (b.outline c).Unshadowed c := by
  have halike := Outline.alike_redeclared c (b.outline c)
  have hschemas : ((b.tree c).redeclare.outline c).map
      (·.toExport c ((b.tree c).redeclare.outline c))
      = (b.outline c).map (·.toExport c (b.outline c)) ↔ (b.outline c).Unshadowed c := by
    rw [outline_redeclare_tree]
    conv_lhs => rw [Outline.redeclared, List.map_map, List.map_inj_left]
    apply forall₂_congr
    intro s _
    exact Schema.toExport_redeclared_iff halike s
  have hdefault : ((b.tree c).redeclare.outline c).any (Stage.isDefault c)
      = (b.outline c).any (Stage.isDefault c) := by
    rw [outline_redeclare_tree, Outline.redeclared, List.any_map]
    congr 1
    funext s
    rw [Function.comp_apply, Stage.isDefault, Schema.isPopulated_redeclared]
    rfl
  rw [← hschemas]
  constructor
  · intro heq
    exact congrArg Export.Tree.schemas heq
  · intro heq
    rw [tree, hdefault, heq]
    rfl

end Bundle

end Decl

end Catalog
