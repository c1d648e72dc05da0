import Catalog.Proofs.Store.Realizing
import Catalog.Proofs.Store.Tags

/-!
The stores that can be reached are those of the trees that can be reached, and no identifier ever
led nowhere on the way.
-/
namespace Catalog

namespace Store

open Access

/-! Building. -/

/-- What a build does before it binds tags. -/
def addTagged (b : Decl.Bundle) : Access Unit := do
  forEach declareSchema b.schemas
  forEach (routed (·.schemaName) pushTable) b.tables
  forEach (routed (·.schemaName) newTag) b.tags

/-- What a build does after it has bound tags. -/
def addLinked (b : Decl.Bundle) : Access Unit := do
  forEach (routed (·.schemaName) pushRef) b.refs
  forEach (routed (·.schemaName) pushEnum) b.enums
  forEach (routed (·.schemaName) pushTableGroup) b.tableGroups
  bindRemaining

theorem addBundle_eq (b : Decl.Bundle) :
    addBundle b = (do addTagged b; bindTags; addLinked b) := by
  simp only [addBundle, addTagged, addLinked, bind_assoc]

theorem realizes_addTagged (b : Decl.Bundle) :
    Realizes (fun _ => True) (addTagged b) (Assembly.addTagged b) fun _ => () := by
  unfold addTagged Assembly.addTagged
  apply (Realizes.forEach realizes_declareSchema evolves_declareSchema b.schemas).bind
    (Evolves.forEach evolves_declareSchema b.schemas)
  intro _
  apply Realizes.routed realizes_pushTable (fun _ _ _ d hs => Assembly.meets_pushTable hs d)
    fun _ => rfl
  exact Realizes.forEach (realizes_routed realizes_newTag) (fun d => evolves_routedRecord
    (fun _ _ _ d hs => Assembly.meets_pushTag hs d) (fun _ => rfl) d) b.tags

theorem realizes_addLinked (b : Decl.Bundle) :
    Realizes (fun _ => True) (addLinked b) (Assembly.addLinked b) fun _ => () := by
  unfold addLinked Assembly.addLinked
  apply Realizes.routed realizes_pushRef (fun _ _ _ d hs => Assembly.meets_pushRef hs d)
    fun _ => rfl
  apply Realizes.routed realizes_pushEnum (fun _ _ _ d hs => Assembly.meets_pushEnum hs d)
    fun _ => rfl
  apply Realizes.routed realizes_pushTableGroup
    (fun _ _ _ d hs => Assembly.meets_pushTableGroup hs d) fun _ => rfl
  exact realizes_bindRemaining

theorem meets_addBundle (b : Decl.Bundle) (config : Config) :
    (Assembly.addBundle b).Meets (Assembly.start config b.project)
      (fun _ a => Ends (addBundle b) (Assembly.start config b.project).layout (.ok ()) a.layout)
      (fun r _ => ∃ st,
        Ends (addBundle b) (Assembly.start config b.project).layout (.error r) st) := by
  rw [addBundle_eq, Assembly.addBundle_eq]
  have hstart := Assembly.sound_start config b.project
  apply Attempt.Meets.bind
  · apply (((realizes_addTagged b).meets hstart trivial).and
      (Assembly.evolves_addTagged b _ trivial)).mono fun _ _ h => h
    exact fun r a h => ⟨_, h.1.bind_error _⟩
  rintro _ a₁ ⟨htagged, hchanges, -⟩
  have ha₁ : a₁.Sound := hchanges.keep (fun _ _ => Assembly.Sound.change) hstart
  have huntagged : a₁.database.Untagged :=
    hchanges.keep (I := fun a => a.database.Untagged) (fun _ _ => Assembly.untagged_change)
      fun _ hs => by cases hs
  apply Attempt.Meets.bind
  · apply ((meets_bindTags ha₁.numbered).and (Attempt.meets_run Assembly.bindTags a₁)).mono
      fun _ _ h => h
    rintro r - ⟨⟨st, hbind⟩, -⟩
    exact ⟨st, htagged.bind (hbind.bind_error _)⟩
  rintro _ a₂ ⟨hbind, hrun⟩
  apply ((realizes_addLinked b).meets (ha₁.binds ⟨huntagged, hrun⟩) trivial).mono
  · exact fun _ a hlinked => htagged.bind (hbind.bind hlinked)
  · exact fun r a hlinked => ⟨_, htagged.bind (hbind.bind hlinked)⟩

/-- The store that a bundle is built into is that of the tree, and so is the rejection. -/
theorem build_eq (b : Decl.Bundle) (config : Config) :
    build b config = some ((Assembly.build b config).map (·.layout)) := by
  have hbundle := meets_addBundle b config
  have hissue : (issue .database).run { base := config.idBase }
      = (.ok ⟨config.idBase⟩, (Assembly.start config b.project).ids) :=
    issue_some (Allocator.peek_eq_some_iff.mpr rfl)
  have hlayout : (Assembly.start config b.project).layout =
      { toDatabaseInfo := b.project, id := ⟨config.idBase⟩, config,
        ids := (Assembly.start config b.project).ids } := by
    have harena : (Assembly.start config b.project).layout.arena = fun _ => {} := by
      funext k
      cases k <;> rfl
    rw [← harena]
    rfl
  unfold build Assembly.build
  rw [hissue]
  dsimp only
  rw [← hlayout]
  rcases hrun : (Assembly.addBundle b).run (Assembly.start config b.project) with ⟨r | _, a⟩
  · obtain ⟨st, hends⟩ := hbundle.of_run_error hrun
    rw [hends]
    rfl
  · rw [hbundle.of_run_ok hrun]
    rfl

/-! Operations. -/

theorem realizes_perform (op : Operation) :
    Realizes (fun a => op.AppliesTo a.database) (perform op) op.perform fun out => out := by
  cases op with
  | getOrCreateSchema name =>
    exact Realizes.imp ((realizes_getOrCreateSchema name).map fun _ => rfl) fun _ _ => trivial
  | pushSchema info token =>
    exact Realizes.imp ((realizes_newSchema info token).map fun _ => rfl) fun _ _ => trivial
  | process id d => exact (realizes_process id d).map fun _ => rfl
  | pushTable id d => exact (realizes_pushTable id d).map fun _ => rfl
  | pushEnum id d => exact (realizes_pushEnum id d).map fun _ => rfl
  | pushRef id d => exact (realizes_pushRef id d).map fun _ => rfl
  | pushTableGroup id d => exact (realizes_pushTableGroup id d).map fun _ => rfl
  | pushTag id d => exact (realizes_newTag id d).map fun _ => rfl
  | bindEnum i =>
    apply Realizes.imp ((realizes_bindEnum i).map fun _ => rfl)
    rintro a ⟨e, he, rfl⟩
    exact List.mem_map.mpr ⟨e, he, rfl⟩
  | bindEnums => exact Realizes.imp (realizes_bindEnums.map fun _ => rfl) fun _ _ => trivial

variable {a : Assembly}

theorem isSome_get?_layout {k : Kind} (hk : k ≠ .database) {i : Id k}
    (hn : ∀ k, (a.database.arena k).Nodup) :
    ((a.layout.arena k).get? i).isSome ↔ i ∈ a.database.arena k := by
  rw [← a.database.map_key_rows k hk, List.mem_map, Option.isSome_iff_exists]
  exact exists_congr fun r => Rows.get?_arena (Database.told_rows hn k)

theorem admits_layout (hn : ∀ k, (a.database.arena k).Nodup) {op : Operation} :
    a.layout.Admits op ↔ op.AppliesTo a.database := by
  have hschema : ∀ {i : Id .schema}, ((a.layout.arena .schema).get? i).isSome
      ↔ ∃ s ∈ a.database.schemas, s.id = i := by
    intro i
    rw [isSome_get?_layout (k := .schema) (by decide) hn]
    exact List.mem_map
  have henum : ∀ {i : Id .enum}, ((a.layout.arena .enum).get? i).isSome
      ↔ ∃ e ∈ a.database.enums, e.id = i := by
    intro i
    rw [isSome_get?_layout (k := .enum) (by decide) hn]
    exact List.mem_map
  cases op <;> first
    | exact Iff.rfl
    | exact hschema
    | exact henum

/-- An operation does to the store of a tree what it does to the tree, and answers the same. -/
theorem perform_eq (ha : a.Sound) {op : Operation} (h : op.AppliesTo a.database) :
    (perform op).run.run a.layout = some ((op.perform.run a).1, (a.after op).layout) := by
  have hends := realizes_perform op a ha h
  have hout : (op.perform.run a).1.map (fun out => out) = (op.perform.run a).1 := by
    cases (op.perform.run a).1 <;> rfl
  rw [hout] at hends
  exact hends

/-- A store that can be reached is the store of a tree that can be reached. -/
theorem Reachable.exists_layout {st : Store} (h : st.Reachable) :
    ∃ a : Assembly, a.Reachable ∧ a.layout = st := by
  induction h with
  | @build b config st hbuild =>
    rw [build_eq] at hbuild
    cases htree : Assembly.build b config with
    | error r =>
      rw [htree] at hbuild
      cases hbuild
    | ok a =>
      rw [htree] at hbuild
      exact ⟨a, .build htree, Except.ok.inj (Option.some.inj hbuild)⟩
  | @step st st' op out _ hadmits hperform ih =>
    obtain ⟨a, ha, rfl⟩ := ih
    have happlies := (admits_layout ha.sound.nodup_arena).mp hadmits
    rw [perform_eq ha.sound happlies] at hperform
    exact ⟨a.after op, .step ha happlies, congrArg (·.2) (Option.some.inj hperform)⟩

theorem reachable_layout (h : a.Reachable) : a.layout.Reachable := by
  induction h with
  | @build b config a hbuild =>
    have hstore : build b config = some (.ok a.layout) := by
      rw [build_eq, hbuild]
      rfl
    exact .build hstore
  | @step a op h happlies ih =>
    exact ih.step ((admits_layout h.sound.nodup_arena).mpr happlies) (perform_eq h.sound happlies)

end Store

end Catalog
