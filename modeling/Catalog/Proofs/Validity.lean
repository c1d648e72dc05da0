import Catalog.Proofs.Mirror.Build
import Catalog.Proofs.Outline.Scope

/-!
Which bundles a database can be built of: those whose outline keeps names and links in order, and
for which there are identifiers enough.
-/
namespace Catalog

namespace Decl

variable {b : Bundle} {c : Config} {s : Schema}

/-- The names of a bundle differ where they must, each record finds what it refers to among the
tables in its scope, and there is an identifier for every entity. A record nested in a schema has
the tables in its scope that are nested in that schema and those before it; any other record has
all tables in its scope. -/
structure Bundle.Valid (b : Bundle) (c : Config) : Prop where
  apart : b.schemas.Pairwise Schema.Apart
  distinct : ∀ s ∈ b.outline c, s.Distinct
  nested : ∀ pre s post, b.schemas = pre ++ s :: post → s.LinksWithin c (pre ++ [s])
  connects : ∀ r ∈ b.refs, (b.outline c).Connects c r
  gathers : ∀ g ∈ b.tableGroups, (b.outline c).Gathers c g
  refsApart : ∀ s ∈ b.outline c, s.refs.Pairwise fun r r' => ¬ (b.outline c).SameEnds c r r'
  groupsApart : ((b.outline c).flatMap (·.tableGroups)).Pairwise fun g g' =>
    ∀ p ∈ (b.outline c).members c g, p ∉ (b.outline c).members c g'
  room : Outline.HasRoom ((b.outline c).map (·.withImpliedTags)) c

/-! Rosters. -/

theorem Outline.apart_arrive {o : Outline} (h : o.Pairwise Schema.Apart) (name : String) :
    (o.arrive c name).Pairwise Schema.Apart := by
  unfold arrive
  split
  · exact h
  · rename_i hname
    apply List.pairwise_append.mpr
    refine ⟨h, List.pairwise_singleton _ _, ?_⟩
    intro t ht u hu
    rw [List.mem_singleton.mp hu]
    exact apart_impliedSchema hname t ht

theorem Outline.apart_arrives {o : Outline} (h : o.Pairwise Schema.Apart) (names : List String) :
    (names.foldl (arrive c) o).Pairwise Schema.Apart := by
  induction names generalizing o with
  | nil => exact h
  | cons name names ih => exact ih (apart_arrive h name)

namespace Bundle

theorem mem_roster (h : s ∈ b.roster c) : s ∈ b.schemas ∨ ∃ name, s = c.impliedSchema name := by
  rcases List.mem_append.mp h with h | h
  · exact .inl h
  · obtain ⟨name, -, rfl⟩ := List.mem_map.mp h
    exact .inr ⟨name, rfl⟩

theorem grows_gather (b : Bundle) (c : Config) (s : Schema) : s.Grows (b.gather c s) := by
  constructor <;> simp [gather]

/-- The outline goes on from any first part of the declared schemas. -/
theorem grows_outline {pre post : List Schema} (h : b.schemas = pre ++ post) :
    Outline.Grows pre (b.outline c) := by
  have hpre : Outline.Grows pre (b.roster c) := by
    rw [roster, h, List.append_assoc]
    exact Outline.grows_append _ _
  exact hpre.trans (Outline.grows_map _ fun s _ => b.grows_gather c s)

/-- The refs of an outline are those nested in declared schemas and those outside. -/
theorem refs_of_mem_outline {r : Ref} (hs : s ∈ b.outline c) (hr : r ∈ s.refs) :
    r ∈ b.refs ∨ ∃ pre t post, b.schemas = pre ++ t :: post ∧ r ∈ t.refs := by
  obtain ⟨u, hu, rfl⟩ := List.mem_map.mp hs
  rcases List.mem_append.mp hr with hr | hr
  · rcases mem_roster hu with hu | ⟨name, rfl⟩
    · obtain ⟨pre, post, hsplit⟩ := List.append_of_mem hu
      exact .inr ⟨pre, u, post, hsplit, hr⟩
    · cases hr
  · exact .inl (List.mem_of_mem_filter hr)

theorem tableGroups_of_mem_outline {g : TableGroup} (hs : s ∈ b.outline c)
    (hg : g ∈ s.tableGroups) :
    g ∈ b.tableGroups ∨ ∃ pre t post, b.schemas = pre ++ t :: post ∧ g ∈ t.tableGroups := by
  obtain ⟨u, hu, rfl⟩ := List.mem_map.mp hs
  rcases List.mem_append.mp hg with hg | hg
  · rcases mem_roster hu with hu | ⟨name, rfl⟩
    · obtain ⟨pre, post, hsplit⟩ := List.append_of_mem hu
      exact .inr ⟨pre, u, post, hsplit, hg⟩
    · cases hg
  · exact .inl (List.mem_of_mem_filter hg)

theorem apart_roster (h : b.schemas.Pairwise Schema.Apart) :
    (b.roster c).Pairwise Schema.Apart := by
  rw [roster_eq_foldl]
  exact Outline.apart_arrives h _

theorem apart_outline (h : b.schemas.Pairwise Schema.Apart) :
    (b.outline c).Pairwise Schema.Apart := by
  apply Outline.pairwise_apart_of_infos _ (apart_roster (c := c) h)
  rw [outline, List.map_map]
  rfl

theorem apart_of_run {rest : List Step}
    (h : (({} : Stage).run c (b.schemas.flatMap (·.steps) ++ rest)).outline.Sound c) :
    b.schemas.Pairwise Schema.Apart := by
  apply Outline.pairwise_apart_of_infos (Stage.infos_run_schemas {} b.schemas).symm
  apply Outline.apart_of_grows h.apart
  rw [Stage.run_append]
  exact Stage.grows_run c _ rest

/-- Declared schemas that a build has accepted are apart. -/
theorem apart_of_sound (h : (({} : Stage).run c (b.steps c)).outline.Sound c) :
    b.schemas.Pairwise Schema.Apart := by
  rw [steps, List.append_assoc] at h
  exact apart_of_run h

end Bundle

namespace Bundle.Valid

/-- What the first schemas hold is found as well in the outline of all of them. -/
theorem connects_outline (h : b.Valid c) (hs : s ∈ b.outline c) {r : Ref} (hr : r ∈ s.refs) :
    (b.outline c).Connects c r := by
  rcases refs_of_mem_outline hs hr with hr | ⟨pre, t, post, hsplit, hr⟩
  · exact h.connects r hr
  · have hfirst : b.schemas = (pre ++ [t]) ++ post := by simp [hsplit]
    exact ((h.nested pre t post hsplit).1 r hr).of_grows (grows_outline hfirst)

theorem gathers_outline (h : b.Valid c) (hs : s ∈ b.outline c) {g : TableGroup}
    (hg : g ∈ s.tableGroups) : (b.outline c).Gathers c g := by
  rcases tableGroups_of_mem_outline hs hg with hg | ⟨pre, t, post, hsplit, hg⟩
  · exact h.gathers g hg
  · have hfirst : b.schemas = (pre ++ [t]) ++ post := by simp [hsplit]
    exact ((h.nested pre t post hsplit).2 g hg).of_grows (grows_outline hfirst)

theorem sound (h : b.Valid c) : Outline.Sound c ((b.outline c).map (·.withImpliedTags)) := by
  have halike := Outline.alike_withImpliedTags c (b.outline c)
  constructor
  · apply Outline.pairwise_apart_of_infos _ (apart_outline (c := c) h.apart)
    rw [List.map_map]
    rfl
  · intro s' hs'
    obtain ⟨s, hs, rfl⟩ := List.mem_map.mp hs'
    exact (h.distinct s hs).withImpliedTags
  · intro s' hs' r hr
    obtain ⟨s, hs, rfl⟩ := List.mem_map.mp hs'
    exact halike.symm.connects (h.connects_outline hs hr)
  · intro s' hs' g hg
    obtain ⟨s, hs, rfl⟩ := List.mem_map.mp hs'
    exact halike.symm.gathers (h.gathers_outline hs hg)
  · intro s' hs'
    obtain ⟨s, hs, rfl⟩ := List.mem_map.mp hs'
    apply (h.refsApart s hs).imp
    intro r r' hne hsame
    exact hne (halike.sameEnds hsame)
  · rw [List.flatMap_map]
    apply h.groupsApart.imp
    intro g g' hne
    rw [halike.members_eq, halike.members_eq]
    exact hne
  · exact h.room

end Bundle.Valid

theorem Bundle.valid_of_sound (apart : b.schemas.Pairwise Schema.Apart)
    (hlinked : ({} : Stage).Linked c (b.steps c))
    (hsound : Outline.Sound c ((b.outline c).map (·.withImpliedTags))) : b.Valid c := by
  have halike := Outline.alike_withImpliedTags c (b.outline c)
  have hmem : ∀ s ∈ b.outline c, s.withImpliedTags ∈ (b.outline c).map (·.withImpliedTags) :=
    fun s hs => List.mem_map.mpr ⟨s, hs, rfl⟩
  obtain ⟨hnested, hconnects, hgathers⟩ := (b.linked_steps_iff c apart).mp hlinked
  refine ⟨apart, ?_, hnested, hconnects, hgathers, ?_, ?_, hsound.room⟩
  · intro s hs
    exact (hsound.distinct _ (hmem s hs)).of_grows s.grows_withImpliedTags
  · intro s hs
    apply (hsound.refsApart _ (hmem s hs)).imp
    intro r r' hne hsame
    exact hne (halike.symm.sameEnds hsame)
  · have hpair := hsound.groupsApart
    rw [List.flatMap_map] at hpair
    apply hpair.imp
    intro g g' hne
    rw [← halike.members_eq, ← halike.members_eq]
    exact hne

/-- A bundle is valid exactly if every step of its build finds its links and the outline that the
steps lead to is sound. -/
theorem Bundle.valid_iff : b.Valid c ↔
    ({} : Stage).Linked c (b.steps c) ∧ (({} : Stage).run c (b.steps c)).outline.Sound c := by
  constructor
  · intro h
    rw [run_steps c h.apart]
    exact ⟨(b.linked_steps_iff c h.apart).mpr ⟨h.nested, h.connects, h.gathers⟩, h.sound⟩
  · rintro ⟨hlinked, hsound⟩
    have apart := apart_of_sound hsound
    rw [run_steps c apart] at hsound
    exact valid_of_sound apart hlinked hsound

end Decl

variable {b : Decl.Bundle} {c : Config}

theorem Assembly.build_ok_iff : (∃ a, build b c = .ok a) ↔ b.Valid c := by
  rw [Decl.Bundle.valid_iff]
  constructor
  · rintro ⟨a, ha⟩
    obtain ⟨hlinked, hfollows⟩ := follows_of_build ha
    exact ⟨hlinked, hfollows.mirrors.sound⟩
  · rintro ⟨hlinked, hsound⟩
    cases hbuild : build b c with
    | ok a => exact ⟨a, rfl⟩
    | error r =>
      obtain ⟨pre, name, rec, post, hsplit, hr⟩ :=
        (refuses_of_build hbuild).unlinked_of_sound hsound
      exact absurd (hlinked.of_split hsplit) hr.not_links

/-- Every bundle that is not valid is rejected, and no other one. -/
theorem Database.exists_build_iff :
    (∃ db, Database.build b c = .ok db) ↔ b.Valid c := by
  rw [exists_build_iff_assembly, Assembly.build_ok_iff]

end Catalog
