import Catalog.Proofs.Outline.Refusal
import Catalog.Proofs.Outline.Scope

/-!
Bundles whose records are all nested in schemas. When the turn of a ref or a group comes, the
schemas that are known have all their tables. So whatever is missing then is missing for want of a
schema.
-/
namespace Catalog.Decl

/-! Where an element stands in lists that are put together. -/

section Split

variable {α β : Type} {l l' : List α} {z : α}

theorem split_of_append {pre post : List α} (h : l ++ l' = pre ++ z :: post) :
    (∃ post', l = pre ++ z :: post') ∨ ∃ pre', pre = l ++ pre' ∧ l' = pre' ++ z :: post := by
  rcases List.append_eq_append_iff.mp h with ⟨more, hpre, hmore⟩ | ⟨more, hl, hmore⟩
  · exact .inr ⟨more, hpre, hmore⟩
  · cases more with
    | nil =>
      rw [List.append_nil] at hl
      exact .inr ⟨[], by rw [hl, List.append_nil], hmore.symm⟩
    | cons y more =>
      injection hmore with hy
      exact .inl ⟨more, hy ▸ hl⟩

theorem split_of_concat {pre post : List α} {y : α} (hne : z ≠ y)
    (h : l ++ [y] = pre ++ z :: post) : ∃ post', l = pre ++ z :: post' := by
  rcases split_of_append h with hl | ⟨pre', -, hlast⟩
  · exact hl
  · have hmem : z ∈ [y] := hlast ▸ List.mem_append_right _ List.mem_cons_self
    exact absurd (List.mem_singleton.mp hmem) hne

theorem split_of_flatMap {f : β → List α} {bs : List β} {pre post : List α}
    (h : bs.flatMap f = pre ++ z :: post) : ∃ bs₁ b bs₂ pre' post', bs = bs₁ ++ b :: bs₂ ∧
      f b = pre' ++ z :: post' ∧ pre = bs₁.flatMap f ++ pre' := by
  induction bs generalizing pre with
  | nil => simp at h
  | cons b bs ih =>
    rw [List.flatMap_cons] at h
    rcases split_of_append h with ⟨post', hb⟩ | ⟨more, rfl, hmore⟩
    · exact ⟨[], b, bs, pre, post', rfl, hb, rfl⟩
    · obtain ⟨bs₁, b', bs₂, pre', post', rfl, hb', rfl⟩ := ih hmore
      exact ⟨b :: bs₁, b', bs₂, pre', post', rfl, hb',
        by rw [List.flatMap_cons, List.append_assoc]⟩

end Split

/-- The steps that declare a schema place its records one after another. -/
theorem Schema.split_steps {s : Schema} {pre post : List Step} {name : String} {rec : Item}
    (h : s.steps = pre ++ .place name rec :: post) : ∃ rs rs', s.records = rs ++ rec :: rs' ∧
      pre = .declare s :: rs.map (.place s.name) := by
  cases pre with
  | nil => simp [steps] at h
  | cons st pre =>
    rw [steps, List.cons_append] at h
    injection h with hst hrest
    obtain ⟨post', hplaces⟩ := split_of_concat (by simp) hrest
    obtain ⟨rs, rest, hrecords, rfl, hcons⟩ := List.map_eq_append_iff.mp hplaces
    obtain ⟨rec', rs', rfl, hrec, -⟩ := List.map_eq_cons_iff.mp hcons
    injection hrec with _ hrec
    rw [← hst, ← hrec]
    exact ⟨rs, rs', hrecords, rfl⟩

/-- All tables of a schema stand before its other records. -/
theorem Schema.tables_before {s : Schema} {rs rs' : List Item} {rec : Item}
    (h : s.records = rs ++ rec :: rs') (hrec : rec.table? = none) :
    rs.filterMap Item.table? = s.tables := by
  have htables : (s.tables.map Item.table).filterMap Item.table? = s.tables := by
    rw [List.filterMap_map]
    exact List.filterMap_some
  rw [s.records_eq_append] at h
  rcases List.append_eq_append_iff.mp h with ⟨more, rfl, hmore⟩ | ⟨more, hsplit, hmore⟩
  · have hnone : more.filterMap Item.table? = [] := by
      apply List.filterMap_eq_nil_iff.mpr
      intro r hr
      exact table?_of_mem_others (hmore ▸ List.mem_append_left _ hr)
    rw [List.filterMap_append, htables, hnone, List.append_nil]
  · cases more with
    | nil =>
      rw [List.append_nil] at hsplit
      rw [← hsplit, htables]
    | cons r more =>
      injection hmore with hr
      have hmem : rec ∈ s.tables.map Item.table := by
        rw [hsplit, hr]
        exact List.mem_append_right _ List.mem_cons_self
      obtain ⟨d, -, rfl⟩ := List.mem_map.mp hmem
      cases hrec

theorem Outline.complete_of_last {o rest : Outline} {s t : Schema}
    (hinfo : t.toSchemaInfo = s.toSchemaInfo) (htables : t.tables = s.tables) :
    Outline.Complete (o ++ [t]) (o ++ s :: rest) := by
  intro name u hu
  unfold schema? at hu ⊢
  rw [List.find?_append] at hu ⊢
  cases ho : o.find? (·.isNamed name) with
  | some v =>
    rw [ho, Option.some_or] at hu
    cases hu
    exact ⟨u, rfl, rfl⟩
  | none =>
    rw [ho, Option.none_or, List.find?_singleton] at hu
    split at hu
    · rename_i hn
      cases hu
      rw [hinfo] at hn
      refine ⟨s, ?_, htables.symm⟩
      rw [Option.none_or, List.find?_cons, hn]
    · cases hu

namespace Stage

variable {c : Config} {x : Stage}

theorem run_before {s : Schema} (h : ∀ t ∈ x.outline, ¬ t.isNamed s.name = true)
    (rs : List Item) : (x.run c (.declare s :: rs.map (.place s.name))).outline
      = x.outline ++ [rs.foldl Schema.add s.header] := by
  rw [run, List.foldl_cons, ← run, run_places]
  exact foldl_place_append h (s := s.header) s.isNamed_name rs

/-- When a record other than a table is placed, the known schemas have all their tables. -/
theorem complete_of_split {ss : List Schema} (h : (x.outline ++ ss).Pairwise Schema.Apart)
    {pre post : List Step} {name : String} {rec : Item}
    (hsplit : ss.flatMap (·.steps) = pre ++ .place name rec :: post) (hrec : rec.table? = none) :
    (∃ s ∈ ss, rec ∈ s.records) ∧
      Outline.Complete (x.run c pre).outline (x.outline ++ ss) := by
  obtain ⟨ss₁, s, ss₂, pre', post', rfl, hsteps, rfl⟩ := split_of_flatMap hsplit
  obtain ⟨rs, rs', hrecords, rfl⟩ := Schema.split_steps hsteps
  rw [← List.append_assoc] at h ⊢
  obtain ⟨hfirst, -, hlater⟩ := List.pairwise_append.mp h
  have hs : ∀ t ∈ x.outline ++ ss₁, ¬ t.isNamed s.name = true :=
    fun t ht htn => hlater t ht s List.mem_cons_self s.name ⟨htn, s.isNamed_name⟩
  refine ⟨⟨s, by simp, by simp [hrecords]⟩, ?_⟩
  rw [run_append, run_schemas hfirst, run_before hs]
  apply Outline.complete_of_last
  · rw [Schema.foldl_add]
    rfl
  · rw [Schema.foldl_add, ← Schema.tables_before hrecords hrec]
    exact List.nil_append _

end Stage

theorem Outline.Sound.links {c : Config} {o : Outline} {s : Schema} {rec : Item} (h : o.Sound c)
    (hs : s ∈ o) (hrec : rec ∈ s.records) : rec.Links c o := by
  cases rec with
  | ref d => exact h.connects s hs d (by simpa [Schema.records] using hrec)
  | tableGroup g => exact h.gathers s hs g (by simpa [Schema.records] using hrec)
  | _ => trivial

/-- A build of nested records that could succeed in another order fails for want of a schema. -/
theorem Stage.Refuses.kind_of_nested {c : Config} {ss : List Schema} {r : Rejection}
    (h : ({} : Stage).Refuses c (ss.flatMap (·.steps) ++ [.implyTags]) r)
    (hsound : Outline.Sound c ss)
    (hend : (({} : Stage).run c (ss.flatMap (·.steps) ++ [.implyTags])).outline = ss) :
    r.kind = .schemaNotFound := by
  obtain ⟨pre, name, rec, post, hsplit, hr⟩ := h.unlinked_of_sound (hend.symm ▸ hsound)
  have hrec : rec.table? = none := by
    cases hr <;> rfl
  have hgrows : (({} : Stage).run c pre).outline.Grows ss := by
    have hrun := Stage.grows_run c (({} : Stage).run c pre) (.place name rec :: post)
    rw [← Stage.run_append, ← hsplit, hend] at hrun
    exact hrun
  obtain ⟨post', hnested⟩ := split_of_concat (by simp) hsplit
  obtain ⟨⟨s, hs, hmem⟩, hcomplete⟩ :=
    Stage.complete_of_split (x := {}) (c := c) hsound.apart hnested hrec
  exact hr.kind_eq hgrows hcomplete (hsound.links hs hmem)

end Catalog.Decl
