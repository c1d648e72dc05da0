import Catalog.Proofs.Integrity.Reach
import Catalog.Proofs.Integrity.Schemas

/-!
The tables on the lists of tags. Tables are linked in the order of their schema, each to the tags
that it mentions, so what a tag lists depends on nothing but its name. A tag that is created for a
mention has missed no table, since every earlier one that mentions the name would have created it.
-/
namespace Catalog

def Table.isTagged (t : Table) (name : String) : Bool :=
  t.mentions.any (·.name = name)

/-- The tables of a schema that mention a tag, in their order. -/
def Schema.listed (s : Schema) (name : String) : List (Id .table) :=
  (s.tables.filter (·.isTagged name)).map (·.id)

/-- Each tag lists the tables that mention it. -/
def Schema.Listed (s : Schema) : Prop :=
  ∀ g ∈ s.tags, g.tables = s.listed g.name

/-- Tags list the tables given for their names, and there are none for names without a tag. -/
structure TagsListed (tags : List Tag) (listed : String → List (Id .table)) : Prop where
  tables : ∀ g ∈ tags, g.tables = listed g.name
  rest : ∀ name, name ∉ tagNames tags → listed name = []

/-- What is listed once a table has been put on the lists for some names. -/
def enlist (listed : String → List (Id .table)) (table : Id .table) (names : List String)
    (name : String) : List (Id .table) :=
  if name ∈ names then pushNew (listed name) table else listed name

section Enlist

variable {listed : String → List (Id .table)} {table : Id .table}

theorem pushNew_pushNew {α : Type} [DecidableEq α] (xs : List α) (x : α) :
    pushNew (pushNew xs x) x = pushNew xs x :=
  if_pos (mem_pushNew.mpr (.inr rfl))

theorem enlist_nil : enlist listed table [] = listed :=
  funext fun _ => if_neg List.not_mem_nil

theorem enlist_cons (name : String) (names : List String) :
    enlist (enlist listed table [name]) table names = enlist listed table (name :: names) := by
  funext other
  by_cases hname : other = name <;> by_cases hnames : other ∈ names <;>
    simp [enlist, hname, hnames, pushNew_pushNew]

/-- A table that is on no list yet comes last on those that it is put on. -/
theorem enlist_of_new {t : Table} (h : ∀ name, t.id ∉ listed name) (name : String) :
    enlist listed t.id (t.mentions.map (·.name)) name =
      listed name ++ if t.isTagged name then [t.id] else [] := by
  have hmentions : name ∈ t.mentions.map (·.name) ↔ t.isTagged name = true := by
    simp [Table.isTagged]
  by_cases hname : t.isTagged name = true
  · rw [enlist, if_pos (hmentions.mpr hname), if_pos hname, pushNew, if_neg (h name)]
  · rw [enlist, if_neg fun hmem => hname (hmentions.mp hmem), if_neg hname, List.append_nil]

end Enlist

/-! Linking tables, mention by mention. -/

section Binding

variable {g : Tagging} {a : Allocator} {listed : String → List (Id .table)} {table : Id .table}
  {tags : List Tag} {seen : List String}

theorem TagsListed.link (h : TagsListed g.tags listed) (htold : TagsTold g.tags a) {t : Tag}
    (ht : t ∈ g.tags) : TagsListed (g.link table t.id).tags (enlist listed table [t.name]) where
  tables := by
    intro u hu
    obtain ⟨v, hv, rfl⟩ := List.mem_map.mp hu
    split
    · rename_i hid
      have heq : v = t := List.inj_on_of_nodup_map htold.numbers hv ht (by rw [hid])
      rw [heq, enlist, if_pos List.mem_cons_self, h.tables t ht]
    · rename_i hid
      have hname : v.name ∉ [t.name] := fun hmem =>
        hid (by rw [List.inj_on_of_nodup_map htold.names hv ht (List.mem_singleton.mp hmem)])
      rw [enlist, if_neg hname, h.tables v hv]
  rest := by
    intro name hname
    rw [tagNames_eq, g.keys_link, ← tagNames_eq] at hname
    have hother : name ∉ [t.name] := fun hmem =>
      hname (List.mem_map.mpr ⟨t, ht, (List.mem_singleton.mp hmem).symm⟩)
    rw [enlist, if_neg hother, h.rest name hname]

/-- A tag that has just been created lists no table, and none was listed for its name. -/
theorem TagsListed.add (h : TagsListed tags listed) {t : Tag} (hnew : t.name ∉ tagNames tags)
    (hnone : t.tables = []) : TagsListed (tags ++ [t]) listed where
  tables := by
    intro u hu
    rcases List.mem_append.mp hu with hu | hu
    · exact h.tables u hu
    · rw [List.mem_singleton.mp hu, hnone, h.rest t.name hnew]
  rest := by
    intro name hname
    rw [tagNames, List.map_append, List.mem_append, not_or] at hname
    exact h.rest name hname.1

theorem meets_mention_listed (htold : TagsTold g.tags a) (h : TagsListed g.tags listed)
    (m : Decl.Mention) :
    (g.mention table m).Meets a (fun g' _ => TagsListed g'.tags (enlist listed table [m.name]))
      (fun _ _ => True) := by
  unfold Tagging.mention
  cases hfind : g.tags.find? (·.name = m.name) with
  | some t =>
    have hname : t.name = m.name :=
      of_decide_eq_true (List.find?_some (p := fun t : Tag => decide (t.name = m.name)) hfind)
    apply Attempt.meets_pure
    rw [← hname]
    exact h.link htold (List.mem_of_find?_eq_some hfind)
  | none =>
    have hnew := notMem_tagNames_of_find? hfind
    cases hi : a.peek .tag with
    | none => exact Attempt.meets_of_run_error (Attempt.run_bind_error (issue_none hi) _) trivial
    | some i =>
      apply Attempt.meets_of_run_ok (Attempt.run_bind_ok (issue_some hi) _)
      have htold' := htold.of_grow (.of_issue (impliedTags_of_new hnew) hi)
      exact TagsListed.link (g := { g with tags := g.tags ++ [_] }) (h.add hnew rfl) htold'
        (List.mem_append_right _ List.mem_cons_self)

theorem meets_mentions_listed (htold : TagsTold g.tags a)
    (hbound : List.Forall₂ (TagFor g.tags) g.bound seen.eraseDups)
    (h : TagsListed g.tags listed) (ms : List Decl.Mention) :
    (g.mentions table ms).Meets a
      (fun g' _ => TagsListed g'.tags (enlist listed table (ms.map (·.name))))
      (fun _ _ => True) := by
  induction ms generalizing g a seen listed with
  | nil =>
    apply Attempt.meets_pure
    rw [List.map_nil, enlist_nil]
    exact h
  | cons m ms ih =>
    apply Attempt.Meets.bind (((Tagging.meets_mention htold hbound m).and
      (meets_mention_listed htold h m)).mono (fun _ _ h => h) fun _ _ _ => trivial)
    rintro g' a' ⟨⟨hgrow, hbound'⟩, hlisted⟩
    rw [List.map_cons, ← enlist_cons]
    exact ih (htold.of_grow hgrow) hbound' hlisted

/-- The induction is on the tables still to come, none of which is on a list. -/
theorem meets_bindTables_listed {ts : List Table} (htold : TagsTold tags a)
    (hts : ∀ t ∈ ts, t.tags = []) (hids : (ts.map (·.id)).Nodup)
    (hnew : ∀ t ∈ ts, ∀ name, t.id ∉ listed name) (h : TagsListed tags listed) :
    (bindTables tags ts).Meets a
      (fun p _ => TagsListed p.2 fun name =>
        listed name ++ (ts.filter (·.isTagged name)).map (·.id))
      (fun _ _ => True) := by
  induction ts generalizing tags a listed with
  | nil => exact Attempt.meets_pure (by simpa using h)
  | cons t ts ih =>
    have hnone : t.tags = [] := hts t List.mem_cons_self
    obtain ⟨hother, hids⟩ := List.nodup_cons.mp hids
    have hbound : List.Forall₂ (TagFor tags) t.tags ([] : List String).eraseDups := by
      rw [hnone]
      exact .nil
    have hmentions : (Tagging.mentions { tags, bound := t.tags } t.id t.mentions).Meets a _ _ :=
      (Tagging.meets_mentions [] htold hbound t.mentions).and
        (meets_mentions_listed htold hbound h t.mentions)
    apply (hmentions.mono (fun _ _ h => h) fun _ _ _ => trivial).bind
    rintro g a₁ ⟨⟨hgrow, -⟩, hlisted⟩
    have hadded : enlist listed t.id (t.mentions.map (·.name)) =
        fun name => listed name ++ if t.isTagged name then [t.id] else [] :=
      funext (enlist_of_new (hnew t List.mem_cons_self))
    rw [hadded] at hlisted
    apply Attempt.Meets.bind (ih (htold.of_grow hgrow)
      (fun u hu => hts u (List.mem_cons_of_mem t hu)) hids _ hlisted)
    · intro p a₂ hp
      apply Attempt.meets_pure
      have hall : ∀ name, (listed name ++ if t.isTagged name then [t.id] else []) ++
          (ts.filter (·.isTagged name)).map (·.id)
            = listed name ++ ((t :: ts).filter (·.isTagged name)).map (·.id) := by
        intro name
        rw [List.append_assoc, List.filter_cons]
        split <;> rfl
      simpa only [hall] using hp
    · intro u hu name
      rw [List.mem_append, not_or]
      refine ⟨hnew u (List.mem_cons_of_mem t hu) name, ?_⟩
      split
      · rintro hmem
        exact hother (List.mem_map.mpr ⟨u, hu, List.mem_singleton.mp hmem⟩)
      · exact List.not_mem_nil

end Binding

/-! Schemas. -/

theorem Schema.mem_tags_insert {s : Schema} {e : Entity} {g : Tag} :
    g ∈ (s.insert e).tags ↔ g ∈ s.tags ∨ e = .tag g := by
  cases e <;> simp [insert, eq_comm]

theorem Schema.listed_congr {s s' : Schema}
    (h : s'.tables.map (fun t => (t.id, t.mentions)) = s.tables.map fun t => (t.id, t.mentions)) :
    s'.listed = s.listed := by
  have hview : ∀ (s : Schema) name, s.listed name =
      ((s.tables.map fun t => (t.id, t.mentions)).filter
        fun p => p.2.any (·.name = name)).map (·.1) := by
    intro s name
    rw [List.filter_map, List.map_map]
    rfl
  funext name
  rw [hview, hview, h]

theorem Schema.Bound.listed {s' s : Schema} (h : s'.Bound s) : s'.listed = s.listed := by
  apply Schema.listed_congr
  apply map_eq_of_paired h.tables
  intro t' t ht
  rw [ht.id, show t'.mentions = t.mentions from congrArg (·.tags) ht.declared]

theorem Schema.meets_bindTags_listed {s : Schema} {a : Allocator} (htold : TagsTold s.tags a)
    (hts : ∀ t ∈ s.tables, t.tags = []) (hids : (s.tables.map (·.id)).Nodup)
    (hnone : ∀ g ∈ s.tags, g.tables = []) :
    s.bindTags.Meets a (fun s' _ => s'.Listed) (fun _ _ => True) := by
  have hlisted : s.bindTags.Meets a (fun s' _ => ∀ g ∈ s'.tags, g.tables = s.listed g.name)
      (fun _ _ => True) := by
    unfold bindTags
    have hempty : TagsListed s.tags fun _ => [] := ⟨hnone, fun _ _ => rfl⟩
    apply Attempt.Meets.bind (meets_bindTables_listed htold hts hids
      (fun _ _ _ => List.not_mem_nil) hempty)
    intro p a' hp
    exact Attempt.meets_pure hp.tables
  apply ((s.meets_bindTags htold hts).and hlisted).mono
  · rintro s' a' ⟨⟨-, hbound, -⟩, hall⟩
    unfold Listed
    rw [hbound.listed]
    exact hall
  · exact fun _ _ _ => trivial

theorem meets_bindSchemas_listed {ss : List Schema} {a : Allocator}
    (htold : ∀ s ∈ ss, TagsTold s.tags a) (hts : ∀ s ∈ ss, ∀ t ∈ s.tables, t.tags = [])
    (hids : ∀ s ∈ ss, (s.tables.map (·.id)).Nodup)
    (hnone : ∀ s ∈ ss, ∀ g ∈ s.tags, g.tables = []) :
    (Attempt.mapEach Schema.bindTags ss).Meets a (fun ss' _ => ∀ s ∈ ss', s.Listed)
      (fun _ _ => True) :=
  meets_bindSchemas_all htold hts fun s hs _ htold' =>
    s.meets_bindTags_listed htold' (hts s hs) (hids s hs) (hnone s hs)

/-- No tag lists a table. -/
def Database.Unlisted (db : Database) : Prop :=
  ∀ s ∈ db.schemas, ∀ g ∈ s.tags, g.tables = []

/-- Tables that are linked to something else are on the lists that they were on. -/
theorem Schema.Listed.relink {s : Schema} (h : s.Listed) {f : Table → Table} {g : Enum → Enum}
    (hf : ∀ t, (f t).Agrees t) : (s.relink f g).Listed := by
  have hmentions : ∀ t, (f t).mentions = t.mentions := fun t => congrArg (·.tags) (hf t).declared
  have hlisted : (s.relink f g).listed = s.listed := by
    apply Schema.listed_congr
    simp only [Schema.relink, List.map_map, Function.comp_def, (hf _).id, hmentions]
  unfold Schema.Listed
  rw [hlisted]
  exact h

namespace Assembly

variable {m : Remit} {a b : Assembly}

theorem Sound.listed_binds (h : a.Sound) (hnone : a.database.Unlisted) (hab : Binds a b) :
    ∀ s ∈ b.database.schemas, s.Listed := by
  have hids : ∀ s ∈ a.database.schemas, (s.tables.map (·.id)).Nodup := by
    have hnodup := h.nodup_arena .table
    change ((a.database.schemas.flatMap (·.tables)).map (·.id)).Nodup at hnodup
    rw [List.map_flatMap] at hnodup
    exact (List.nodup_flatMap.mp hnodup).1
  have hmeets : bindTags.Meets a (fun _ b => ∀ s ∈ b.database.schemas, s.Listed)
      (fun _ _ => True) := by
    unfold bindTags
    apply Attempt.Meets.bind (P := fun _ b => ∀ s ∈ b.database.schemas, s.Listed)
    · apply Assembly.meets_insert
      exact meets_bindSchemas_listed (fun s hs => h.tagsTold hs) hab.untagged hids hnone
    · exact fun _ _ hb => Attempt.meets_pure hb
  exact hmeets.of_run_ok hab.run

/-! Changes before and after tags are bound. -/

theorem Numbered.unlisted_change (hn : a.Numbered) (h : a.database.Unlisted)
    (hab : Change m a b) : b.database.Unlisted := by
  intro s' hs' g hg
  cases hn.yields hab hs' with
  | empty => cases hg
  | same hs => exact h _ hs g hg
  | grown hs _ hfits =>
    rcases Schema.mem_tags_insert.mp hg with hg | rfl
    · exact h _ hs g hg
    · exact hfits.linked

theorem Numbered.listed_change (hn : a.Numbered) (h : ∀ s ∈ a.database.schemas, s.Listed)
    (hab : Change .linking a b) : ∀ s ∈ b.database.schemas, s.Listed := by
  intro s' hs'
  cases hn.yields hab hs' with
  | empty => exact nofun
  | same hs hf => exact (h _ hs).relink hf
  | @grown s e _ _ hs hm _ hf =>
    have hold := (h _ hs).relink (g := fun e => e) e.agrees_tie
    have hinsert : ((s.relink e.tie fun e => e).insert e).Listed := by
      cases e with
      | table _ => exact absurd rfl hm.1
      | tag _ => exact absurd rfl hm.2
      | _ => exact hold
    exact hinsert.relink hf

/-- When a build is done, each tag lists the tables of its schema that mention it. -/
theorem listed_of_build {bundle : Decl.Bundle} {c : Config} (h : build bundle c = .ok a) :
    ∀ s ∈ a.database.schemas, s.Listed := by
  obtain ⟨a₁, a₂, hchanges, hbinds, hchanges'⟩ := changes_of_build h
  have hbefore : a₁.Sound ∧ a₁.database.Unlisted := by
    apply hchanges.keep (I := fun a => a.Sound ∧ a.database.Unlisted)
    · exact fun _ _ ha hab => ⟨ha.1.change hab, ha.1.numbered.unlisted_change ha.2 hab⟩
    · exact ⟨sound_start c bundle.project, nofun⟩
  have hafter : a.Sound ∧ ∀ s ∈ a.database.schemas, s.Listed := by
    apply hchanges'.keep (I := fun a => a.Sound ∧ ∀ s ∈ a.database.schemas, s.Listed)
    · exact fun _ _ ha hab => ⟨ha.1.change hab, ha.1.numbered.listed_change ha.2 hab⟩
    · exact ⟨hbefore.1.binds hbinds, hbefore.1.listed_binds hbefore.2 hbinds⟩
  exact hafter.2

end Assembly

end Catalog
