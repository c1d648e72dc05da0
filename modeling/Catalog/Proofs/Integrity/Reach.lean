import Catalog.Proofs.Integrity.Linked
import Catalog.Proofs.Mirror.Build

/-!
Reachable states come about by changes and one binding of tags, which happens before any table is
linked to a tag. What both keep holds of every reachable state.
-/
namespace Catalog

/-! Binding tags links tags to tables of the database. -/

/-- Tags are linked to some of certain tables. -/
def TagsWithin (P : Id .table → Prop) (tags : List Tag) : Prop :=
  ∀ t ∈ tags, ∀ i ∈ t.tables, P i

section Within

variable {P : Id .table → Prop} {a : Allocator}

theorem TagsWithin.link {g : Tagging} (h : TagsWithin P g.tags) {table : Id .table} (ht : P table)
    (tag : Id .tag) : TagsWithin P (g.link table tag).tags := by
  intro u hu i hi
  obtain ⟨t, hmem, rfl⟩ := List.mem_map.mp hu
  split at hi
  · rcases mem_pushNew.mp hi with hi | rfl
    · exact h t hmem i hi
    · exact ht
  · exact h t hmem i hi

theorem meets_mentions_within {g : Tagging} (h : TagsWithin P g.tags) {table : Id .table}
    (ht : P table) (ms : List Decl.Mention) :
    (g.mentions table ms).Meets a (fun g' _ => TagsWithin P g'.tags) (fun _ _ => True) := by
  induction ms generalizing g a with
  | nil => exact Attempt.meets_pure h
  | cons m ms ih =>
    unfold Tagging.mentions
    apply Attempt.Meets.bind (P := fun g' _ => TagsWithin P g'.tags)
    · unfold Tagging.mention
      split
      · exact Attempt.meets_pure (h.link ht _)
      · apply Attempt.Meets.bind (P := fun _ _ => True)
          ((Attempt.meets_run _ _).mono (fun _ _ _ => trivial) fun _ _ _ => trivial)
        intro i a' _
        apply Attempt.meets_pure
        apply TagsWithin.link _ ht
        intro u hu j hj
        rcases List.mem_append.mp hu with hu | hu
        · exact h u hu j hj
        · rw [List.mem_singleton.mp hu] at hj
          cases hj
    · exact fun g' _ hg' => ih hg'

theorem meets_bindTables_within {tags : List Tag} (h : TagsWithin P tags) {ts : List Table}
    (hts : ∀ t ∈ ts, P t.id) :
    (bindTables tags ts).Meets a (fun p _ => TagsWithin P p.2) (fun _ _ => True) := by
  induction ts generalizing tags a with
  | nil => exact Attempt.meets_pure h
  | cons t ts ih =>
    apply Attempt.Meets.bind
      (meets_mentions_within (g := { tags, bound := t.tags }) h (hts t List.mem_cons_self) _)
    intro g a' hg
    apply Attempt.Meets.bind (ih hg fun u hu => hts u (List.mem_cons_of_mem t hu))
    exact fun p a'' hp => Attempt.meets_pure hp

theorem meets_bindSchemas_within {ss : List Schema} (htold : ∀ s ∈ ss, TagsTold s.tags a)
    (hnone : ∀ s ∈ ss, ∀ t ∈ s.tables, t.tags = []) (h : ∀ s ∈ ss, TagsWithin P s.tags)
    (hts : ∀ s ∈ ss, ∀ t ∈ s.tables, P t.id) :
    (Attempt.mapEach Schema.bindTags ss).Meets a
      (fun ss' _ => ∀ s ∈ ss', TagsWithin P s.tags) (fun _ _ => True) := by
  apply meets_bindSchemas_all htold hnone
  intro s hs a' _
  unfold Schema.bindTags
  apply Attempt.Meets.bind (meets_bindTables_within (h s hs) (hts s hs))
  exact fun p a'' hp => Attempt.meets_pure hp

end Within

/-- No table is linked to a tag. -/
def Database.Untagged (db : Database) : Prop :=
  ∀ s ∈ db.schemas, ∀ t ∈ s.tables, t.tags = []

namespace Assembly

/-- The tags have been bound, which none of them was before. -/
structure Binds (a b : Assembly) : Prop where
  untagged : a.database.Untagged
  run : bindTags.run a = (.ok (), b)

/-- What has been built or reached holds together: numbers and names tell entities apart, and links
lead to entities. -/
structure Sound (a : Assembly) : Prop where
  numbered : a.Numbered
  named : a.database.Named
  linked : a.database.Linked

variable {a b : Assembly}

theorem Sound.nodup_arena (h : a.Sound) (k : Kind) : (a.database.arena k).Nodup :=
  Database.nodup_arena (h.numbered.nodup k)

/-- The outcome of binding tags. -/
structure Bound (a b : Assembly) : Prop where
  database : b.database = { a.database with schemas := b.database.schemas }
  schemas : List.Forall₂ Schema.Bound b.database.schemas a.database.schemas
  ids : ∃ n, a.ids.Drew b.ids (fun k => if k = .tag then n else 0) ∧
    ∀ k, (b.database.numbers k).Perm (a.database.numbers k ++ tagRange a.ids n k)
  within : ∀ s ∈ b.database.schemas,
    TagsWithin (fun i => i ∈ a.database.arena .table) s.tags

/-! Binding tags does nothing to fields and enums. -/

theorem Bound.fields_eq (hab : Bound a b) : b.database.fields = a.database.fields := by
  simp only [Database.fields, Database.tables, List.flatMap_assoc]
  apply flatMap_eq_of_paired hab.schemas
  intro s' s hs
  exact flatMap_eq_of_paired hs.tables fun _ _ ht => ht.fields

theorem Bound.enums_eq (hab : Bound a b) : b.database.enums = a.database.enums := by
  apply flatMap_eq_of_paired hab.schemas
  intro s' s hs
  rw [hs.same]

theorem Sound.tagsTold (h : a.Sound) {s : Schema} (hs : s ∈ a.database.schemas) :
    TagsTold s.tags a.ids :=
  Database.tagsTold (h.numbered.nodup .tag) (h.numbered.below .tag) hs
    ((h.named.distinct s hs).children .tag)

theorem Sound.tagsWithin (h : a.Sound) {s : Schema} (hs : s ∈ a.database.schemas) :
    TagsWithin (fun i => i ∈ a.database.arena .table) s.tags :=
  fun _ ht _ hi => h.linked.tagTables (List.mem_flatMap.mpr ⟨s, hs, ht⟩) hi

theorem Sound.bound (h : a.Sound) (hab : Binds a b) : Bound a b := by
  have htables : ∀ s ∈ a.database.schemas, ∀ t ∈ s.tables, t.id ∈ a.database.arena .table :=
    fun s hs t ht => Database.mem_arena.mpr (Database.mem_numbers_table hs ht)
  have hmeets : bindTags.Meets a (fun _ b => Bound a b) (fun _ _ => True) := by
    unfold bindTags
    apply Attempt.Meets.bind (P := fun _ b => Bound a b)
    · apply Assembly.meets_insert
      apply ((meets_bindSchemas (fun s hs => h.tagsTold hs) hab.untagged).and
        (meets_bindSchemas_within (fun s hs => h.tagsTold hs) hab.untagged
          (fun s hs => h.tagsWithin hs) htables)).mono
      · rintro ss ids ⟨⟨hdrew, hbound, hnumbers⟩, hwithin⟩
        refine ⟨rfl, hbound, ⟨_, hdrew, ?_⟩, hwithin⟩
        intro k
        unfold Database.numbers
        rw [List.append_assoc]
        exact (hnumbers k).append_left _
      · exact fun _ _ _ => trivial
    · exact fun _ b hb => Attempt.meets_pure hb
  exact hmeets.of_run_ok hab.run

end Assembly

/-! Every step keeps what has been reached sound. -/

theorem Table.Bound.name {tags : List Tag} {t' t : Table} (h : t'.Bound tags t) :
    t'.name = t.name :=
  congrArg (·.name) h.declared

theorem Schema.Bound.distinct {s' s : Schema} (h : s'.Bound s) (hs : s.Distinct) :
    s'.Distinct where
  children := by
    intro sort
    have hother : s'.names .enum = s.names .enum ∧ s'.names .tableGroup = s.names .tableGroup := by
      rw [h.same]
      exact ⟨rfl, rfl⟩
    cases sort with
    | table =>
      have hnames : s'.names .table = s.names .table :=
        map_eq_of_paired h.tables fun _ _ ht => ht.name
      exact hnames ▸ hs.children .table
    | enum => exact hother.1 ▸ hs.children .enum
    | tableGroup => exact hother.2 ▸ hs.children .tableGroup
    | tag =>
      have hnames : s'.names .tag = tagNames s.tags ++ s.implied.map (·.name) := by
        have hmap := congrArg (List.map (·.name)) h.tags
        rw [List.map_append, List.map_map, List.map_map] at hmap
        exact hmap
      rw [hnames, List.nodup_append]
      refine ⟨hs.children .tag, Decl.Schema.nodup_impliedTags _ _, ?_⟩
      rintro name hname _ himplied rfl
      exact (Decl.Schema.mem_impliedTags_name.mp himplied).1 hname
  fields := by
    intro t' ht'
    obtain ⟨t, ht, hbound⟩ := exists_right_of_paired h.tables ht'
    rw [hbound.fields]
    exact hs.fields t ht
  values := by
    rw [h.same]
    exact hs.values

theorem Schema.Bound.links {s' s : Schema} (h : s'.Bound s) {k : Kind} {n : Nat}
    (hn : n ∈ s'.links k) : n ∈ s.links k ∨ n ∈ s'.tags.flatMap (·.id.number k) ∨
      n ∈ s'.tags.flatMap (·.links k) := by
  have hother : s'.enums = s.enums ∧ s'.refs = s.refs ∧ s'.tableGroups = s.tableGroups := by
    rw [h.same]
    exact ⟨rfl, rfl, rfl⟩
  obtain ⟨henums, hrefs, hgroups⟩ := hother
  simp only [Schema.links, henums, hrefs, hgroups, List.mem_append] at hn ⊢
  rcases hn with (((hn | hn) | hn) | hn) | hn
  · obtain ⟨t', ht', hn⟩ := List.mem_flatMap.mp hn
    obtain ⟨t, ht, hbound⟩ := exists_right_of_paired h.tables ht'
    rw [Table.links, hbound.group, hbound.fields, List.append_assoc, List.mem_append] at hn
    rcases hn with hn | hn
    · obtain ⟨i, hi, hn⟩ := List.mem_flatMap.mp hn
      obtain ⟨name, -, u, hu, rfl, -⟩ := exists_right_of_paired hbound.tags hi
      exact .inr (.inl (List.mem_flatMap.mpr ⟨u, hu, hn⟩))
    · have hold : n ∈ t.links k := by
        rw [Table.links, List.append_assoc]
        exact List.mem_append_right _ hn
      exact .inl (.inl (.inl (.inl (.inl (List.mem_flatMap.mpr ⟨t, ht, hold⟩)))))
  · exact .inr (.inr hn)
  · exact .inl (.inl (.inl (.inr hn)))
  · exact .inl (.inl (.inr hn))
  · exact .inl (.inr hn)

namespace Assembly

variable {a b : Assembly}

theorem sound_start (c : Config) (project : DatabaseInfo) : (start c project).Sound where
  numbered := {
    nodup := (follows_start c project).mirrors.nodup_numbers
    below := fun _ _ => (follows_start c project).mirrors.lt_next }
  named := ⟨.nil, fun _ hs => by cases hs⟩
  linked := fun _ => List.nil_subset _

theorem Sound.change {m : Remit} (h : a.Sound) (hab : Change m a b) : b.Sound where
  numbered := h.numbered.change hab
  named := h.numbered.named_change h.named hab
  linked := h.numbered.linked_change h.linked hab

theorem Bound.named (hab : Bound a b) (h : a.database.Named) : b.database.Named := by
  apply h.of_heads
  · apply map_eq_of_paired hab.schemas
    intro s' s hs
    rw [hs.same]
    rfl
  · intro s' hs'
    obtain ⟨s, hs, hbound⟩ := exists_right_of_paired hab.schemas hs'
    exact hbound.distinct (h.distinct s hs)

theorem Bound.linked (hab : Bound a b) (h : a.database.Linked) : b.database.Linked := by
  intro k n hn
  obtain ⟨m, -, hnumbers⟩ := hab.ids
  have hold : ∀ {n}, n ∈ a.database.numbers k → n ∈ b.database.numbers k := fun hn =>
    (hnumbers k).mem_iff.mpr (List.mem_append_left _ hn)
  obtain ⟨s', hs', hn⟩ := Database.mem_links.mp hn
  obtain ⟨s, hs, hbound⟩ := exists_right_of_paired hab.schemas hs'
  rcases hbound.links hn with hn | hn | hn
  · exact hold (h k (Database.mem_links.mpr ⟨s, hs, hn⟩))
  · obtain ⟨t, ht, hn⟩ := List.mem_flatMap.mp hn
    obtain ⟨rfl, rfl⟩ := Id.mem_number.mp hn
    exact Database.mem_arena.mp
      (List.mem_map.mpr ⟨t, List.mem_flatMap.mpr ⟨s', hs', ht⟩, rfl⟩)
  · obtain ⟨t, ht, hn⟩ := List.mem_flatMap.mp hn
    obtain ⟨i, hi, hn⟩ := List.mem_flatMap.mp hn
    obtain ⟨rfl, rfl⟩ := Id.mem_number.mp hn
    exact hold (Database.mem_arena.mp (hab.within s' hs' t ht i hi))

theorem Sound.binds (h : a.Sound) (hab : Binds a b) : b.Sound := by
  have hbound := h.bound hab
  obtain ⟨n, hdrew, hnumbers⟩ := hbound.ids
  have hadds := adds_of_supplies ⟨_, hdrew, fun _ => rfl⟩ hnumbers
  exact ⟨h.numbered.of_adds hadds, hbound.named h.named, hbound.linked h.linked⟩

end Assembly

/-! Changes leave tables without tags. -/

namespace Database

variable {db : Database}

theorem Untagged.relink (h : db.Untagged) {f : Table → Table} {g : Enum → Enum}
    (hf : ∀ t, (f t).Agrees t) : (db.relink f g).Untagged := by
  intro s' hs' t' ht'
  obtain ⟨s, hs, rfl⟩ := mem_relink.mp hs'
  obtain ⟨t, ht, rfl⟩ := List.mem_map.mp ht'
  rw [(hf t).tags]
  exact h s hs t ht

theorem Untagged.bindEnum (h : db.Untagged) (i : Id .enum) : (db.bindEnum i).Untagged := by
  rw [bindEnum_eq]
  exact h.relink (db.agrees_linkEnum i)

theorem Untagged.place (h : db.Untagged) (id : Id .schema) {e : Entity} (he : e.LinkedIn db) :
    (db.place id e).Untagged := by
  have hlinked : (db.relink e.tie fun e => e).Untagged := h.relink e.agrees_tie
  intro s' hs' t ht
  obtain ⟨s, hs, rfl⟩ := mem_updateSchema.mp hs'
  split at ht
  · rcases Schema.mem_tables_insert.mp ht with ht | rfl
    · exact hlinked s hs t ht
    · exact he.tags
  · exact hlinked s hs t ht

end Database

namespace Assembly

variable {a b : Assembly}

theorem untagged_change {m : Remit} (h : a.database.Untagged) (hab : Change m a b) :
    b.database.Untagged := by
  cases hab with
  | spend hab =>
    rw [hab.database]
    exact h
  | mark => exact h
  | opens hab =>
    rw [hab.database]
    intro s hs t ht
    rcases Database.mem_addSchema.mp hs with hs | rfl
    · exact h s hs t ht
    · rw [hab.empty] at ht
      cases ht
  | @inserts s e _ hab =>
    have hplaced := h.place s.id hab.fits.linked
    rw [hab.database]
    rcases a.database.commit_cases s.id e with ⟨-, heq⟩ | ⟨en, -, -, heq⟩
    · rw [heq]
      exact hplaced
    · rw [heq]
      exact hplaced.bindEnum en.id
  | bindEnum i => exact h.bindEnum i

/-! Builds and operations. -/

/-- What a build does before it binds tags. -/
def addTagged (b : Decl.Bundle) : Construction Unit := do
  Attempt.forEach declareSchema b.schemas
  Attempt.forEach (routed (·.schemaName) pushTable) b.tables
  Attempt.forEach (routed (·.schemaName) pushTag) b.tags

/-- What a build does after it has bound tags. -/
def addLinked (b : Decl.Bundle) : Construction Unit := do
  Attempt.forEach (routed (·.schemaName) pushRef) b.refs
  Attempt.forEach (routed (·.schemaName) pushEnum) b.enums
  Attempt.forEach (routed (·.schemaName) pushTableGroup) b.tableGroups
  bindRemaining

theorem addBundle_eq (b : Decl.Bundle) :
    addBundle b = (do addTagged b; bindTags; addLinked b) := by
  simp only [addBundle, addTagged, addLinked, bind_assoc]

theorem evolves_addTagged (b : Decl.Bundle) :
    Evolves .full (fun _ => True) (addTagged b) fun _ _ => True := by
  unfold addTagged
  apply (Evolves.forEach evolves_declareSchema _).bind
  intro _
  apply ((evolves_routed (fun _ _ _ d hs => meets_pushTable hs d) fun _ => rfl).within
    (Remit.within_full _)).bind
  intro _
  exact (evolves_routed (fun _ _ _ d hs => meets_pushTag hs d) fun _ => rfl).within
    (Remit.within_full _)

theorem evolves_addLinked (b : Decl.Bundle) :
    Evolves .linking (fun _ => True) (addLinked b) fun _ _ => True := by
  unfold addLinked
  apply ((evolves_routed (fun _ _ _ d hs => meets_pushRef hs d) fun _ => rfl).within
    (Remit.of_within_linking ⟨nofun, nofun⟩)).bind
  intro _
  apply ((evolves_routed (fun _ _ _ d hs => meets_pushEnum hs d) fun _ => rfl).within
    (Remit.of_within_linking ⟨nofun, nofun⟩)).bind
  intro _
  apply ((evolves_routed (fun _ _ _ d hs => meets_pushTableGroup hs d) fun _ => rfl).within
    (Remit.of_within_linking ⟨nofun, nofun⟩)).bind
  intro _
  exact evolves_bindRemaining.within Remit.binding_within_linking

/-- A build proceeds by changes, apart from the one binding of tags, which comes when all tables
and all declared tags are there. -/
theorem changes_of_build {bundle : Decl.Bundle} {c : Config} (h : build bundle c = .ok a) :
    ∃ a₁ a₂, Changes .full (start c bundle.project) a₁ ∧ Binds a₁ a₂ ∧ Changes .linking a₂ a := by
  have hmeets : (addBundle bundle).Meets (start c bundle.project)
      (fun _ a => ∃ a₁ a₂, Changes .full (start c bundle.project) a₁ ∧ Binds a₁ a₂ ∧
        Changes .linking a₂ a)
      (fun _ _ => True) := by
    rw [addBundle_eq]
    apply Attempt.Meets.bind ((evolves_addTagged bundle _ trivial).mono (fun _ _ h => h)
      fun _ _ _ => trivial)
    rintro _ a₁ ⟨hchanges, -⟩
    have huntagged : a₁.database.Untagged :=
      hchanges.keep (I := fun a => a.database.Untagged) (fun _ _ => untagged_change)
        fun _ hs => by cases hs
    apply Attempt.Meets.bind ((Attempt.meets_run bindTags a₁).mono (fun _ _ h => h)
      fun _ _ _ => trivial)
    intro _ a₂ hrun
    apply (evolves_addLinked bundle a₂ trivial).mono
    · rintro _ a ⟨hchanges', -⟩
      exact ⟨a₁, a₂, hchanges, ⟨huntagged, hrun⟩, hchanges'⟩
    · exact fun _ _ _ => trivial
  unfold build at h
  split at h
  · rename_i a' hrun
    cases h
    exact hmeets.of_run_ok hrun
  · cases h

/-- What changes keep, and the binding of tags, holds of every state that is reachable. -/
theorem Reachable.keep {I : Assembly → Prop} (h : a.Reachable)
    (hstart : ∀ c project, I (start c project)) (hchange : ∀ a b, I a → Change .full a b → I b)
    (hbind : ∀ a b, I a → Binds a b → I b) : I a := by
  induction h with
  | build hbuild =>
    obtain ⟨a₁, a₂, hchanges, hbinds, hchanges'⟩ := changes_of_build hbuild
    exact (hchanges'.mono (Remit.within_full _)).keep hchange
      (hbind a₁ a₂ (hchanges.keep hchange (hstart _ _)) hbinds)
  | step _ happlies ih => exact (Operation.changes happlies).keep hchange ih

/-- Every reachable state is sound. -/
theorem Reachable.sound (h : a.Reachable) : a.Sound :=
  h.keep sound_start (fun _ _ => Sound.change) fun _ _ => Sound.binds

/-- What is kept on the way as long as the state is sound holds of every reachable state. -/
theorem Reachable.keep_sound {I : Assembly → Prop} (h : a.Reachable)
    (hstart : ∀ c project, I (start c project))
    (hchange : ∀ a b, a.Sound → I a → Change .full a b → I b)
    (hbind : ∀ a b, a.Sound → I a → Binds a b → I b) : I a := by
  have hboth : a.Sound ∧ I a := by
    apply h.keep (I := fun a => a.Sound ∧ I a)
    · exact fun c project => ⟨sound_start c project, hstart c project⟩
    · exact fun a b ha hab => ⟨ha.1.change hab, hchange a b ha.1 ha.2 hab⟩
    · exact fun a b ha hab => ⟨ha.1.binds hab, hbind a b ha.1 ha.2 hab⟩
  exact hboth.2

end Assembly

end Catalog
