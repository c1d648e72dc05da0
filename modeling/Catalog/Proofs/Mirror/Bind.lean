import Catalog.Proofs.Mirror.Insert
import Catalog.Proofs.Mirror.Tagging

/-!
Binding tags carries out the step that adds the implied tags to all schemas.
-/
namespace Catalog

open Decl.Schema (impliedTags)

variable {c : Config} {project : DatabaseInfo} {x : Decl.Stage} {a : Assembly}

theorem paired_eq_iff {α β γ : Type} {f : α → γ} {g : β → γ} {l : List α} {l' : List β} :
    List.Forall₂ (fun a b => f a = g b) l l' ↔ l.map f = l'.map g := by
  rw [← List.forall₂_eq_eq_eq, List.forall₂_map_left_iff, List.forall₂_map_right_iff]

theorem flatMap_eq_of_paired {α β γ : Type} {R : α → β → Prop} {f : α → List γ} {g : β → List γ}
    {l : List α} {l' : List β} (h : List.Forall₂ R l l') (hfg : ∀ a b, R a b → f a = g b) :
    l.flatMap f = l'.flatMap g := by
  rw [List.flatMap_def, List.flatMap_def, map_eq_of_paired h hfg]

theorem paired_comp {α β γ : Type} {R : α → β → Prop} {S : β → γ → Prop} {P : α → γ → Prop}
    {l : List α} {l' : List β} {l'' : List γ} (h : List.Forall₂ R l l')
    (h' : List.Forall₂ S l' l'') (hP : ∀ a b c, R a b → S b c → P a c) :
    List.Forall₂ P l l'' := by
  induction h generalizing l'' with
  | nil =>
    cases h'
    exact .nil
  | cons hab _ ih =>
    cases h' with
    | cons hbc hrest => exact .cons (hP _ _ _ hab hbc) (ih hrest)

/-- The tags that the tables of a schema imply. -/
def Schema.implied (s : Schema) : List Decl.Tag :=
  impliedTags (tagNames s.tags) (s.tables.flatMap (·.mentions))

/-- A schema with the tags that its tables mention, linked to them, and otherwise as before. -/
structure Schema.Bound (s' s : Schema) : Prop where
  same : s' = { s with tables := s'.tables, tags := s'.tags }
  tags : s'.tags.map (·.declared) = s.tags.map (·.declared) ++ s.implied
  tables : List.Forall₂ (Table.Bound s'.tags) s'.tables s.tables

namespace Table.Bound

variable {tags : List Tag} {t' t : Table}

theorem declared (h : t'.Bound tags t) : t'.declared = t.declared := by
  rw [h.same]
  rfl

theorem id (h : t'.Bound tags t) : t'.id = t.id := by
  rw [h.same]

theorem numbers (h : t'.Bound tags t) (k : Kind) : t'.numbers k = t.numbers k := by
  rw [h.same]
  rfl

theorem group (h : t'.Bound tags t) : t'.group = t.group := by
  rw [h.same]

theorem fields (h : t'.Bound tags t) : t'.fields = t.fields := by
  rw [h.same]

end Table.Bound

/-- The tags of a schema can be told apart where numbers can, and so can those to come. -/
theorem Database.tagsTold {db : Database} {ids : Allocator} (hn : (db.numbers .tag).Nodup)
    (hbelow : ∀ n ∈ db.numbers .tag, n < ids.next .tag) {s : Schema} (hs : s ∈ db.schemas)
    (hnames : (tagNames s.tags).Nodup) : TagsTold s.tags ids where
  names := hnames
  numbers := by
    rw [Database.numbers_eq_arena, Database.arena, Database.tags, List.map_flatMap,
      List.map_flatMap] at hn
    have hown := (List.nodup_flatMap.mp hn).1 s hs
    rw [List.map_map] at hown
    exact hown
  below := by
    intro t ht
    apply hbelow
    apply Database.mem_arena.mp
    exact List.mem_map.mpr ⟨t, List.mem_flatMap.mpr ⟨s, hs, ht⟩, rfl⟩

theorem Assembly.Mirrors.tagsTold (h : a.Mirrors c project x) {s : Schema}
    (hs : s ∈ a.database.schemas) : TagsTold s.tags a.ids := by
  apply Database.tagsTold (h.nodup_numbers .tag) (fun _ => h.lt_next) hs
  obtain ⟨d, hd, hm⟩ := h.exists_decl hs
  have hnames : tagNames s.tags = d.names .tag := hm.names .tag
  rw [hnames]
  exact (h.sound.distinct d hd).tags

theorem TagsTold.mono {tags : List Tag} {a a' : Allocator} (h : TagsTold tags a)
    (hle : a.next .tag ≤ a'.next .tag) : TagsTold tags a' :=
  ⟨h.names, h.numbers, fun t ht => Nat.lt_of_lt_of_le (h.below t ht) hle⟩

/-! One schema. -/

theorem flatMap_tagNumbers (tags : List Tag) (k : Kind) :
    tags.flatMap (·.id.number k) = if k = .tag then tags.map (·.id.toNat) else [] := by
  unfold Id.number
  split
  · rw [List.map_eq_flatMap]
  · exact flatMap_nothing tags

/-- The numbers that so many further tags take. -/
def tagRange (a : Allocator) (n : Nat) (k : Kind) : List Nat :=
  List.range' (a.next k) (if k = .tag then n else 0)

theorem tagRange_add {a a' : Allocator} {n : Nat}
    (h : a.Drew a' fun k => if k = .tag then n else 0) (n' : Nat) (k : Kind) :
    tagRange a (n + n') k = tagRange a n k ++ tagRange a' n' k := by
  unfold tagRange
  rw [h.next k, List.range'_append_1]
  split <;> rfl

theorem Schema.meets_bindTags {s : Schema} {a : Allocator} (htold : TagsTold s.tags a)
    (hts : ∀ t ∈ s.tables, t.tags = []) :
    s.bindTags.Meets a
      (fun s' a' => a.Drew a' (fun k => if k = .tag then s.implied.length else 0) ∧ s'.Bound s ∧
        ∀ k, s'.numbers k = s.numbers k ++ tagRange a s.implied.length k)
      (fun r _ => r.kind = .idSpaceExhausted ∧
        UInt32.size < a.next .tag + s.implied.length) := by
  unfold bindTags
  apply Attempt.Meets.bind
  · apply (meets_bindTables htold hts).mono
    · exact fun _ _ h => h
    · exact fun r _ hr => hr
  · rintro ⟨ts, tags⟩ a' ⟨hgrow, hbound⟩
    obtain ⟨new, hkeys, hnumbers, hdecl⟩ := hgrow.keys
    apply Attempt.meets_pure
    refine ⟨hgrow.drew, ⟨rfl, ?_, hbound⟩, ?_⟩
    · have hmap := congrArg (List.map (·.2)) hkeys
      rw [List.map_append, List.map_map, List.map_map, hdecl] at hmap
      exact hmap
    · intro k
      have hids : tags.map (·.id.toNat) = s.tags.map (·.id.toNat) ++ new.map (·.1) := by
        have hmap := congrArg (List.map (·.1)) hkeys
        rw [List.map_append, List.map_map, List.map_map] at hmap
        exact hmap
      have htags : tags.flatMap (·.id.number k)
          = s.tags.flatMap (·.id.number k) ++ tagRange a s.implied.length k := by
        rw [flatMap_tagNumbers, flatMap_tagNumbers, hids, hnumbers, tagRange]
        split
        · rename_i hk
          rw [hk]
          rfl
        · rfl
      have htables : ts.flatMap (·.numbers k) = s.tables.flatMap (·.numbers k) :=
        flatMap_eq_of_paired hbound fun _ _ ht => ht.numbers k
      simp only [numbers, htags, htables]
      -- Tags have numbers of a kind that nothing after them has.
      by_cases hk : k = .tag
      · subst hk
        simp [Enum.numbers, Ref.numbers, Id.number, flatMap_nothing]
      · simp [tagRange, hk]

/-! All schemas. -/

theorem meets_bindSchemas {ss : List Schema} {a : Allocator}
    (htold : ∀ s ∈ ss, TagsTold s.tags a) (hts : ∀ s ∈ ss, ∀ t ∈ s.tables, t.tags = []) :
    (Attempt.mapEach Schema.bindTags ss).Meets a
      (fun ss' a' =>
        a.Drew a' (fun k => if k = .tag then (ss.map (·.implied.length)).sum else 0) ∧
        List.Forall₂ Schema.Bound ss' ss ∧
        ∀ k, (ss'.flatMap (·.numbers k)).Perm
          (ss.flatMap (·.numbers k) ++ tagRange a (ss.map (·.implied.length)).sum k))
      (fun r _ => r.kind = .idSpaceExhausted ∧
        UInt32.size < a.next .tag + (ss.map (·.implied.length)).sum) := by
  induction ss generalizing a with
  | nil =>
    apply Attempt.meets_pure
    refine ⟨?_, .nil, ?_⟩
    · exact .tags_zero a
    · intro k
      simp [tagRange]
  | cons s ss ih =>
    rw [List.map_cons, List.sum_cons]
    apply Attempt.Meets.bind
    · apply (s.meets_bindTags (htold s List.mem_cons_self) (hts s List.mem_cons_self)).mono
      · exact fun _ _ h => h
      · rintro r _ ⟨hkind, hlt⟩
        exact ⟨hkind, by omega⟩
    · rintro s' a₁ ⟨hdrew, hbound, hnumbers⟩
      have hnext := hdrew.next_tag
      apply Attempt.Meets.bind
      · apply (ih (fun u hu => (htold u (List.mem_cons_of_mem s hu)).mono (by omega))
          fun u hu => hts u (List.mem_cons_of_mem s hu)).mono
        · exact fun _ _ h => h
        · rintro r _ ⟨hkind, hlt⟩
          exact ⟨hkind, by omega⟩
      · rintro ss' a₂ ⟨hdrew', hbound', hnumbers'⟩
        apply Attempt.meets_pure
        refine ⟨hdrew.tags_trans hdrew', .cons hbound hbound', ?_⟩
        intro k
        have hall := (List.Perm.of_eq (hnumbers k)).append (hnumbers' k)
        rw [List.flatMap_cons, List.flatMap_cons, tagRange_add hdrew]
        apply hall.trans
        rw [List.perm_iff_count]
        intro n
        simp only [List.count_append]
        omega

/-- What binding the tags of each schema leads to holds of all of them. -/
theorem meets_bindSchemas_all {P : Schema → Prop} {ss : List Schema} {a : Allocator}
    (htold : ∀ s ∈ ss, TagsTold s.tags a) (hts : ∀ s ∈ ss, ∀ t ∈ s.tables, t.tags = [])
    (h : ∀ s ∈ ss, ∀ a, TagsTold s.tags a →
      s.bindTags.Meets a (fun s' _ => P s') fun _ _ => True) :
    (Attempt.mapEach Schema.bindTags ss).Meets a (fun ss' _ => ∀ s' ∈ ss', P s')
      fun _ _ => True := by
  induction ss generalizing a with
  | nil => exact Attempt.meets_pure (by simp)
  | cons s ss ih =>
    have hmem := List.mem_cons_self (a := s) (l := ss)
    apply Attempt.Meets.bind (((s.meets_bindTags (htold s hmem) (hts s hmem)).and
      (h s hmem a (htold s hmem))).mono (fun _ _ h => h) fun _ _ _ => trivial)
    rintro s' a₁ ⟨⟨hdrew, -, -⟩, hs'⟩
    have hnext := hdrew.next_tag
    apply Attempt.Meets.bind (ih
      (fun u hu => (htold u (List.mem_cons_of_mem s hu)).mono (by omega))
      (fun u hu => hts u (List.mem_cons_of_mem s hu))
      fun u hu => h u (List.mem_cons_of_mem s hu))
    intro ss' a₂ hss'
    apply Attempt.meets_pure
    intro u hu
    rcases List.mem_cons.mp hu with rfl | hu
    · exact hs'
    · exact hss' u hu

/-! Schemas that are bound mirror those with implied tags. -/

theorem Schema.Mirrors.implied_eq {db : Database} {o : Decl.Outline} {s : Schema}
    {d : Decl.Schema} (h : s.Mirrors db c o d) :
    s.implied = impliedTags (d.tags.map (·.name)) (d.tables.flatMap (·.tags)) := by
  have hnames : tagNames s.tags = d.tags.map (·.name) := h.names .tag
  have hmentions : s.tables.flatMap (·.mentions) = d.tables.flatMap (·.tags) :=
    flatMap_eq_of_paired h.tables fun t d ht => congrArg (·.tags) ht
  rw [implied, hnames, hmentions]

theorem impliedTags_bare (known : List String) (ms : List Decl.Mention) :
    (impliedTags known ms).map (·.bare) = impliedTags known ms := by
  induction ms generalizing known with
  | nil => rfl
  | cons m ms ih =>
    rw [impliedTags_cons]
    split
    · exact ih known
    · rw [List.map_cons, ih]
      rfl

theorem Schema.Bound.mirrors {db : Database} {o : Decl.Outline} {s' s : Schema}
    {d : Decl.Schema} (h : s'.Bound s) (hm : s.Mirrors db c o d) :
    s'.Mirrors db c o d.withImpliedTags where
  info := by
    rw [h.same]
    exact hm.info
  token := by
    rw [h.same]
    exact hm.token
  tables := by
    rw [paired_eq_iff, map_eq_of_paired h.tables fun _ _ ht => ht.declared]
    exact paired_eq_iff.mp hm.tables
  tags := by
    rw [paired_eq_iff, h.tags, Decl.Schema.withImpliedTags, List.map_append, hm.implied_eq,
      impliedTags_bare, paired_eq_iff.mp hm.tags]
  enums := by
    rw [h.same]
    exact hm.enums
  refs := by
    rw [h.same]
    exact hm.refs
  tableGroups := by
    rw [h.same]
    exact hm.tableGroups

theorem Schema.Bound.tagged {s' s : Schema} (h : s'.Bound s) {t' : Table} (ht' : t' ∈ s'.tables) :
    t'.Tagged s' := by
  obtain ⟨t, ht, hbound⟩ := exists_right_of_paired h.tables ht'
  have hmentions : t'.mentions = t.mentions := congrArg (·.tags) hbound.declared
  unfold Table.Tagged
  rw [hmentions]
  exact hbound.tags

theorem Decl.Schema.extent_withImpliedTags (d : Decl.Schema) (k : Kind) :
    d.withImpliedTags.extent k = d.extent k + if k = .tag then
      (impliedTags (d.tags.map (·.name)) (d.tables.flatMap (·.tags))).length else 0 := by
  have hsum : ∀ ts : List Decl.Tag, (ts.map fun _ => if k = Kind.tag then 1 else 0).sum
      = if k = .tag then ts.length else 0 := by
    intro ts
    split <;> simp
  simp only [extent, records, withImpliedTags, List.map_append, List.sum_append, List.map_map,
    Function.comp_def, Decl.Item.extent, hsum]
  omega

theorem Decl.Outline.extent_withImpliedTags (o : Decl.Outline) (k : Kind) :
    Decl.Outline.extent (o.map (·.withImpliedTags)) k = o.extent k + if k = .tag then
      (o.map fun d =>
        (impliedTags (d.tags.map (·.name)) (d.tables.flatMap (·.tags))).length).sum else 0 := by
  unfold extent
  rw [Nat.add_assoc]
  congr 1
  induction o with
  | nil => simp
  | cons d o ih =>
    simp only [List.map_cons, List.sum_cons, ih, d.extent_withImpliedTags]
    split <;> omega

section Bound

variable {db : Database} {ss : List Schema}

theorem keeps_of_bound (h : List.Forall₂ Schema.Bound ss db.schemas) :
    db.Keeps { db with schemas := ss } := by
  have hname : ∀ s' s : Schema, s'.Bound s → s'.name = s.name := fun s' s hs => by rw [hs.same]
  constructor
  · have heq : Database.tablePaths { db with schemas := ss } = db.tablePaths := by
      apply flatMap_eq_of_paired h
      intro s' s hs
      rw [hname s' s hs]
      apply map_eq_of_paired hs.tables
      intro t' t ht
      have hinfo : t'.name = t.name := congrArg (·.name) ht.declared
      rw [ht.id, hinfo]
    rw [heq]
    exact List.Subset.refl _
  · have heq : Database.fieldPaths { db with schemas := ss } = db.fieldPaths := by
      apply flatMap_eq_of_paired h
      intro s' s hs
      rw [hname s' s hs]
      apply flatMap_eq_of_paired hs.tables
      intro t' t ht
      have hinfo : t'.name = t.name := congrArg (·.name) ht.declared
      rw [ht.fields, hinfo]
    rw [heq]
    exact List.Subset.refl _

theorem Database.Grouped.bound (h : db.Grouped) (hss : List.Forall₂ Schema.Bound ss db.schemas) :
    Database.Grouped { db with schemas := ss } := by
  intro s' hs' t' ht'
  obtain ⟨s, hs, hbound⟩ := exists_right_of_paired hss hs'
  obtain ⟨t, ht, htable⟩ := exists_right_of_paired hbound.tables ht'
  have hgroups : ∀ s' s : Schema, s'.Bound s → s'.tableGroups = s.tableGroups :=
    fun s' s hs => by rw [hs.same]
  rw [htable.group, htable.id, h s hs t ht]
  constructor
  · rintro ⟨u, hu, g, hg, hmem⟩
    obtain ⟨u', hu', hbound'⟩ := exists_left_of_paired hss hu
    exact ⟨u', hu', g, hgroups u' u hbound' ▸ hg, hmem⟩
  · rintro ⟨u', hu', g, hg, hmem⟩
    obtain ⟨u, hu, hbound'⟩ := exists_right_of_paired hss hu'
    exact ⟨u, hu, g, hgroups u' u hbound' ▸ hg, hmem⟩

end Bound

namespace Assembly.Mirrors

theorem implied_length (h : a.Mirrors c project x) :
    (a.database.schemas.map (·.implied.length)).sum = (x.outline.map fun d =>
      (impliedTags (d.tags.map (·.name)) (d.tables.flatMap (·.tags))).length).sum := by
  congr 1
  apply map_eq_of_paired h.schemas
  intro s d hm
  rw [hm.implied_eq]

theorem extent_implyTags (h : a.Mirrors c project x) (k : Kind) :
    (x.step c .implyTags).outline.extent k = x.outline.extent k +
      if k = .tag then (a.database.schemas.map (·.implied.length)).sum else 0 := by
  rw [h.implied_length]
  exact x.outline.extent_withImpliedTags k

theorem bind (h : a.Mirrors c project x) {ss : List Schema} {ids : Allocator}
    (hdrew : a.ids.Drew ids
      (fun k => if k = .tag then (a.database.schemas.map (·.implied.length)).sum else 0))
    (hbound : List.Forall₂ Schema.Bound ss a.database.schemas)
    (hnumbers : ∀ k, (ss.flatMap (·.numbers k)).Perm (a.database.schemas.flatMap (·.numbers k)
      ++ tagRange a.ids (a.database.schemas.map (·.implied.length)).sum k)) :
    Assembly.Mirrors c project (x.step c .implyTags) ⟨{ a.database with schemas := ss }, ids⟩ where
  config := h.config
  project := h.project
  base := hdrew.base.trans h.base
  issued := h.issued_of_drew hdrew h.extent_implyTags
  numbers := by
    intro k
    apply h.numbers_of_drew h.extent_implyTags
    unfold Database.numbers
    rw [List.append_assoc]
    exact (hnumbers k).append_left _
  schemas := by
    have hgrows := x.grows_step c .implyTags
    have hkeeps := keeps_of_bound hbound
    have hmirrors : List.Forall₂ (Schema.Mirrors { a.database with schemas := ss } c
        (x.step c .implyTags).outline) a.database.schemas x.outline :=
      h.schemas.imp fun _ _ hm => hm.mono hkeeps hgrows
    have houtline : (x.step c .implyTags).outline = x.outline.map (·.withImpliedTags) := rfl
    rw [houtline, List.forall₂_map_right_iff]
    rw [houtline] at hmirrors
    exact paired_comp hbound hmirrors fun _ _ _ hs hm => hs.mirrors hm
  untagged := by
    intro htagged
    cases htagged
  tagged := by
    intro _ s' hs' t' ht'
    obtain ⟨s, -, hs⟩ := exists_right_of_paired hbound hs'
    exact hs.tagged ht'
  marked := h.marked
  sound := h.sound.implyTags (h.hasRoom_of_drew hdrew h.extent_implyTags)

end Assembly.Mirrors

theorem carries_bindTags : Carries c project (fun x _ => x.tagged = false) Assembly.bindTags
    [.implyTags] fun _ x _ => x.tagged = true := by
  rintro x a ⟨h, hgrouped⟩ htagged
  unfold Assembly.bindTags
  apply Attempt.Meets.bind
  · apply Assembly.meets_insert
    apply (meets_bindSchemas (fun s hs => h.tagsTold hs) (h.untagged htagged)).mono
    · rintro ss ids ⟨hdrew, hbound, hnumbers⟩
      exact (⟨h.bind hdrew hbound hnumbers, hgrouped.bound hbound⟩ :
        Assembly.Follows c project (x.step c .implyTags) ⟨{ a.database with schemas := ss }, ids⟩)
    · rintro r _ ⟨hkind, hlt⟩
      refine .inl ⟨h.sound, .exhausted (h.not_hasRoom (k := .tag) h.extent_implyTags ?_) hkind⟩
      rw [if_pos rfl]
      exact hlt
  · intro _ b hb
    exact Attempt.meets_pure ⟨⟨trivial, trivial⟩, hb, rfl⟩

end Catalog
