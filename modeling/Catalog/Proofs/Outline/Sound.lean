import Catalog.Proofs.Outline.Growth
import Catalog.Rejection
import Mathlib.Data.List.Pairwise

/-!
Sound outlines: those of which a database can be built. Names tell schemas and records apart,
links lead somewhere, and there are identifiers for all. A record that fits keeps an outline
sound.
-/
namespace Catalog.Decl

namespace Schema

/-- The names that a schema has given to its records of some sort. -/
def names (s : Schema) : ChildSort → List String
  | .table => s.tables.map (·.name)
  | .enum => s.enums.map (·.name)
  | .tag => s.tags.map (·.name)
  | .tableGroup => s.tableGroups.map (·.name)

/-- A schema without its records. -/
def header (s : Schema) : Schema :=
  { toSchemaInfo := s.toSchemaInfo, token := s.token }

theorem extent_add (s : Schema) (r : Item) (k : Kind) :
    (s.add r).extent k = s.extent k + r.extent k := by
  unfold extent records
  cases r <;> simp [add] <;> omega

theorem extent_header (s : Schema) (k : Kind) :
    s.header.extent k = if k = .schema then 1 else 0 := by
  simp [extent, records, header]

theorem mem_impliedTags_name {known : List String} {ms : List Mention} {name : String} :
    name ∈ (impliedTags known ms).map (·.name) ↔ name ∉ known ∧ name ∈ ms.map (·.name) := by
  induction ms generalizing known with
  | nil => simp [impliedTags]
  | cons m ms ih =>
    unfold impliedTags
    by_cases hm : m.name ∈ known
    · rw [if_pos hm, ih]
      simp only [List.map_cons, List.mem_cons]
      grind
    · rw [if_neg hm, List.map_cons, List.mem_cons, ih]
      simp only [List.map_cons, List.mem_cons]
      grind

theorem nodup_impliedTags (known : List String) (ms : List Mention) :
    ((impliedTags known ms).map (·.name)).Nodup := by
  induction ms generalizing known with
  | nil => simp [impliedTags]
  | cons m ms ih =>
    unfold impliedTags
    by_cases hm : m.name ∈ known
    · rw [if_pos hm]
      exact ih known
    · rw [if_neg hm, List.map_cons, List.nodup_cons]
      refine ⟨?_, ih _⟩
      intro hmem
      exact (mem_impliedTags_name.mp hmem).1 List.mem_cons_self

theorem Distinct.withImpliedTags {s : Schema} (h : s.Distinct) : s.withImpliedTags.Distinct where
  tables := h.tables
  enums := h.enums
  tags := by
    unfold Schema.withImpliedTags
    rw [List.map_append, List.nodup_append]
    refine ⟨h.tags, nodup_impliedTags _ _, ?_⟩
    rintro name hname _ himplied rfl
    exact (mem_impliedTags_name.mp himplied).1 hname
  tableGroups := h.tableGroups
  fields := h.fields
  values := h.values

theorem Apart.symm {s t : Schema} (h : s.Apart t) : t.Apart s :=
  fun name hn => h name ⟨hn.2, hn.1⟩

instance : Std.Symm Apart where
  symm _ _ := Apart.symm

theorem distinct_header (s : Schema) : s.header.Distinct := by
  constructor <;> simp [header]

end Schema

namespace Outline

/-- Adds a record to the schema that a name refers to. -/
def place (o : Outline) (name : String) (r : Item) : Outline :=
  o.map fun s => if s.isNamed name then s.add r else s

variable {c : Config} {o o' : Outline} {s : Schema} {name : String} {r : Item}

theorem grows_place (o : Outline) (name : String) (r : Item) : o.Grows (o.place name r) := by
  apply grows_map
  intro s _
  split
  · exact s.grows_add r
  · exact Schema.Grows.refl s

theorem place_eq_self (h : ∀ s ∈ o, ¬ s.isNamed name = true) : o.place name r = o := by
  unfold place
  conv_rhs => rw [← List.map_id o]
  apply List.map_congr_left
  intro s hs
  rw [if_neg (h s hs)]
  rfl

theorem place_append (o o' : Outline) (name : String) (r : Item) :
    Outline.place (o ++ o') name r = o.place name r ++ o'.place name r :=
  List.map_append

theorem place_cons (s : Schema) (o : Outline) (name : String) (r : Item) :
    Outline.place (s :: o) name r =
      (if s.isNamed name then s.add r else s) :: o.place name r :=
  rfl

/-- A name refers to one schema at most, so its records go there and nowhere else. -/
theorem place_of_split {pre post : Outline}
    (apart : (pre ++ s :: post).Pairwise Schema.Apart)
    (hs : s.isNamed name = true) :
    Outline.place (pre ++ s :: post) name r = pre ++ s.add r :: post := by
  obtain ⟨-, hpost, hpre⟩ := List.pairwise_append.mp apart
  rw [place_append, place_cons, if_pos hs, place_eq_self, place_eq_self]
  · intro t ht htn
    exact (List.pairwise_cons.mp hpost).1 t ht name ⟨hs, htn⟩
  · intro t ht htn
    exact hpre t ht s List.mem_cons_self name ⟨htn, hs⟩

theorem schema?_of_split {pre post : Outline}
    (apart : (pre ++ s :: post).Pairwise Schema.Apart)
    (hs : s.isNamed name = true) : Outline.schema? (pre ++ s :: post) name = some s := by
  obtain ⟨-, -, hpre⟩ := List.pairwise_append.mp apart
  unfold schema?
  rw [List.find?_append, List.find?_eq_none.mpr]
  · simp [hs]
  · intro t ht htn
    exact hpre t ht s List.mem_cons_self name ⟨htn, hs⟩

theorem split_of_schema? (hs : o.schema? name = some s) :
    s.isNamed name = true ∧ ∃ pre post, o = pre ++ s :: post := by
  obtain ⟨hn, pre, post, rfl, -⟩ := List.find?_eq_some_iff_append.mp hs
  exact ⟨hn, pre, post, rfl⟩

theorem extent_append (o o' : Outline) (k : Kind) :
    Outline.extent (o ++ o') k = o.extent k + (o'.map (·.extent k)).sum := by
  unfold extent
  rw [List.map_append, List.sum_append, Nat.add_assoc]

theorem extent_concat (o : Outline) (s : Schema) (k : Kind) :
    Outline.extent (o ++ [s]) k = o.extent k + s.extent k := by
  rw [extent_append]
  simp

/-- What an outline has to meet for a database to be built of it. -/
structure Sound (c : Config) (o : Outline) : Prop where
  apart : o.Pairwise Schema.Apart
  distinct : ∀ s ∈ o, s.Distinct
  connects : ∀ s ∈ o, ∀ r ∈ s.refs, o.Connects c r
  gathers : ∀ s ∈ o, ∀ g ∈ s.tableGroups, o.Gathers c g
  refsApart : ∀ s ∈ o, s.refs.Pairwise fun r r' => ¬ o.SameEnds c r r'
  groupsApart : (o.flatMap (·.tableGroups)).Pairwise fun g g' =>
    ∀ p ∈ o.members c g, p ∉ o.members c g'
  room : o.HasRoom c

theorem SameEnds.symm {r r' : Ref} (h : o.SameEnds c r r') : o.SameEnds c r' r := by
  obtain ⟨e₁, e₂, e₁', e₂', hends, hends', h⟩ := h
  refine ⟨e₁', e₂', e₁, e₂, hends', hends, ?_⟩
  rcases h with ⟨h₁, h₂⟩ | ⟨h₁, h₂⟩
  · exact .inl ⟨fun p => (h₁ p).symm, fun p => (h₂ p).symm⟩
  · exact .inr ⟨fun p => (h₂ p).symm, fun p => (h₁ p).symm⟩

theorem Sound.eq_of_isNamed (h : o.Sound c) {t : Schema} (hs : s ∈ o) (ht : t ∈ o)
    (hsn : s.isNamed name = true) (htn : t.isNamed name = true) : s = t := by
  by_contra hne
  exact h.apart.forall hs ht hne name ⟨hsn, htn⟩

theorem apart_of_grows (h : o'.Pairwise Schema.Apart) (hg : o.Grows o') :
    o.Pairwise Schema.Apart := by
  have apart : (o'.map (·.toSchemaInfo)).Pairwise fun s t =>
      ∀ name, ¬ (s.isNamed name = true ∧ t.isNamed name = true) :=
    List.pairwise_map.mpr h
  have infos : (o.flatMap fun s => [s.toSchemaInfo]).Sublist
      (o'.flatMap fun s => [s.toSchemaInfo]) :=
    hg.flatMap_sublist fun s s' hs => by rw [hs.info]
  rw [← List.map_eq_flatMap, ← List.map_eq_flatMap] at infos
  have sub := apart.sublist infos
  rw [List.pairwise_map] at sub
  exact sub

/-! Refs and groups whose tables are known are told apart in the same way later on. -/

theorem refsApart_iff_of_grows (hg : o.Grows o') {rs : List Ref}
    (connects : ∀ r ∈ rs, o.Connects c r) :
    rs.Pairwise (fun r r' => ¬ o.SameEnds c r r') ↔
      rs.Pairwise fun r r' => ¬ o'.SameEnds c r r' := by
  apply List.Pairwise.iff_of_mem
  intro r r' hr hr'
  exact not_congr (sameEnds_iff_of_grows (connects r hr) (connects r' hr') hg).symm

theorem groupsApart_iff_of_grows (hg : o.Grows o') {gs : List TableGroup}
    (gathers : ∀ g ∈ gs, o.Gathers c g) :
    gs.Pairwise (fun g g' => ∀ p ∈ o.members c g, p ∉ o.members c g') ↔
      gs.Pairwise fun g g' => ∀ p ∈ o'.members c g, p ∉ o'.members c g' := by
  apply List.Pairwise.iff_of_mem
  intro g g' hgm hgm'
  rw [(gathers g hgm).members_eq hg, (gathers g' hgm').members_eq hg]

theorem Sound.gathers_of_mem (h : o.Sound c) {g : TableGroup}
    (hg : g ∈ o.flatMap (·.tableGroups)) : o.Gathers c g := by
  obtain ⟨s, hs, hgs⟩ := List.mem_flatMap.mp hg
  exact h.gathers s hs g hgs

/-- Growth without further refs and groups keeps an outline sound if its names stay distinct and
there is room. -/
theorem Sound.extend (h : o.Sound c) (hg : o.Grows o')
    (apart : o'.Pairwise Schema.Apart)
    (distinct : ∀ s ∈ o', s.Distinct)
    (hrefs : ∀ s ∈ o', s.refs = [] ∨ ∃ t ∈ o, s.refs = t.refs)
    (hgroups : o'.flatMap (·.tableGroups) = o.flatMap (·.tableGroups))
    (room : o'.HasRoom c) : o'.Sound c where
  apart := apart
  distinct := distinct
  connects := by
    intro s hs r hr
    rcases hrefs s hs with hnil | ⟨t, ht, heq⟩
    · simp [hnil] at hr
    · exact (h.connects t ht r (heq ▸ hr)).of_grows hg
  gathers := by
    intro s hs g hgs
    have hmem : g ∈ o.flatMap (·.tableGroups) := hgroups ▸ List.mem_flatMap.mpr ⟨s, hs, hgs⟩
    exact (h.gathers_of_mem hmem).of_grows hg
  refsApart := by
    intro s hs
    rcases hrefs s hs with hnil | ⟨t, ht, heq⟩
    · simp [hnil]
    · rw [heq]
      exact (refsApart_iff_of_grows hg (h.connects t ht)).mp (h.refsApart t ht)
  groupsApart := by
    rw [hgroups]
    exact (groupsApart_iff_of_grows hg fun _ hgm => h.gathers_of_mem hgm).mp h.groupsApart
  room := room

end Outline

end Catalog.Decl
