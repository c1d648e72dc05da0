import Catalog.Proofs.Store.Insertion
import Catalog.Store.Build

/-!
Binding tags in a store. The tree binds one schema at a time, with the tags that its tables mention,
and the store follows it link by link: in between stands a tree of which a part is bound.
-/
namespace Catalog

/-! Linking a table and a tag. -/

namespace Database

variable {db : Database}

def mapTags (db : Database) (f : Tag → Tag) : Database :=
  { db with schemas := db.schemas.map fun s => { s with tags := s.tags.map f } }

theorem rows_mapTags (db : Database) {f : Tag → Tag} {g : Stored.Tag → Stored.Tag}
    (hg : ∀ s t, (f t).stored s = g (t.stored s)) (hid : ∀ t, (f t).id = t.id) :
    (db.mapTags f).rows = Function.update db.rows .tag ((db.rows .tag).map g) := by
  funext k
  cases k <;> simp [rows, Schema.rows, mapTags, Function.update, List.flatMap_map,
    List.map_flatMap, Function.comp_def, Schema.stored, hg, hid]

/-- Links a table and a tag in both directions. -/
def linkTag (db : Database) (table : Id .table) (tag : Id .tag) : Database :=
  (db.mapTables fun t => if t.id = table then { t with tags := pushNew t.tags tag } else t).mapTags
    fun g => if g.id = tag then { g with tables := pushNew g.tables table } else g

end Database

namespace Store

open Access

/-- The record of a table with one more tag. -/
def tagged (tag : Id .tag) (t : Stored.Table) : Stored.Table :=
  { t with tags := pushNew t.tags tag }

/-- The record of a tag that lists one more table. -/
def listing (table : Id .table) (g : Stored.Tag) : Stored.Tag :=
  { g with tables := pushNew g.tables table }

theorem rows_linkTag (db : Database) (i : Id .table) (j : Id .tag) :
    (db.linkTag i j).rows = (db.rows.alter i (tagged j)).alter j (listing i) := by
  rw [Database.linkTag, Database.rows_mapTags (g := fun r => if r.id = j then listing i r else r),
    Database.rows_mapTables (g := fun r => if r.id = i then tagged j r else r)]
  · rfl
  · exact fun s t => apply_ite (Table.stored s) _ _ _
  all_goals first
    | exact fun s t => apply_ite (Tag.stored s) _ _ _
    | (intro t; split <;> rfl)

theorem arena_linkTag (db : Database) (i : Id .table) (j : Id .tag) (k : Kind) :
    (db.linkTag i j).arena k = db.arena k := by
  by_cases hk : k = .database
  · subst hk
    rfl
  · rw [← Database.map_key_rows _ k hk, ← Database.map_key_rows _ k hk, rows_linkTag,
      Rows.map_key_alter (k := .tag) _ j (f := listing i) (fun _ => rfl),
      Rows.map_key_alter (k := .table) _ i (f := tagged j) fun _ => rfl]

theorem ends_linkTag {a : Assembly} (hn : ∀ k, (a.database.arena k).Nodup) {i : Id .table}
    (hi : i ∈ a.database.arena .table) {j : Id .tag} (hj : j ∈ a.database.arena .tag) :
    Ends (do update i (tagged j); update j (listing i)) a.layout (.ok ())
      (Assembly.layout ⟨a.database.linkTag i j, a.ids⟩) := by
  rw [← Database.map_key_rows _ .table (by decide)] at hi
  rw [← Database.map_key_rows _ .tag (by decide)] at hj
  have htold := Database.told_rows hn .tag
  have hkeys := Rows.map_key_alter (k := .table) a.database.rows i (f := tagged j) (fun _ => rfl)
    .tag
  rw [Rows.Told, ← hkeys] at htold
  rw [← hkeys] at hj
  rw [a.layout_eq (a.database.linkTag i j) (congrArg _ (rows_linkTag _ i j)) rfl
    (by simp [Database.linkTag, Database.mapTags, Database.mapTables])]
  change Ends _ (a.layout.withRows a.database.rows) _ _
  exact (ends_update (Database.told_rows hn .table) hi (f := tagged j) fun _ => rfl).seq
    (ends_update htold hj (f := listing i) fun _ => rfl)

end Store

/-! A tree of which one schema is bound in part. -/

/-- The place of a schema in a database, to be filled with tables and tags. -/
structure Slot where
  database : Database
  before : List Schema
  schema : Schema
  after : List Schema

namespace Slot

variable (z : Slot)

/-- The schema with what its place is filled with. -/
def filled (tables : List Table) (tags : List Tag) : Schema :=
  { z.schema with tables, tags }

def fill (tables : List Table) (tags : List Tag) : Database :=
  { z.database with schemas := z.before ++ z.filled tables tags :: z.after }

variable {z}

theorem mem_fill {tables : List Table} {tags : List Tag} :
    z.filled tables tags ∈ (z.fill tables tags).schemas :=
  List.mem_append_right _ List.mem_cons_self

end Slot

/-- Children with different identifiers, of which those of one owner are set apart. -/
theorem apart_of_nodup_flatMap {ω χ κ : Type} {before after : List ω} {o : ω} {cs : ω → List χ}
    {f : χ → κ} (h : (((before ++ o :: after).flatMap cs).map f).Nodup) {c : χ} (hc : c ∈ cs o) :
    ∀ o' ∈ before ++ after, ∀ c' ∈ cs o', f c' ≠ f c := by
  intro o' ho' c' hc' heq
  have hperm : ((before ++ o :: after).flatMap cs).Perm (cs o ++ (before ++ after).flatMap cs) :=
    List.perm_middle.flatMap_right cs
  have hnodup := (hperm.map f).nodup_iff.mp h
  rw [List.map_append, List.nodup_append] at hnodup
  exact hnodup.2.2 _ (List.mem_map.mpr ⟨c, hc, rfl⟩) _
    (List.mem_map.mpr ⟨c', List.mem_flatMap.mpr ⟨o', ho', hc'⟩, rfl⟩) heq.symm

/-- A change to one element of a list that is told by its key. -/
theorem map_ite_of_nodup {χ κ : Type} [DecidableEq κ] {before after : List χ} {c : χ} {f : χ → κ}
    {g : χ → χ} (h : ((before ++ c :: after).map f).Nodup) :
    ((before ++ c :: after).map fun x => if f x = f c then g x else x)
      = before ++ g c :: after := by
  have hnodup := (List.perm_middle.map f).nodup_iff.mp h
  have hother : ∀ l, l ⊆ before ++ after → (l.map fun x => if f x = f c then g x else x) = l := by
    intro l hl
    refine (List.map_congr_left fun x hx => if_neg fun heq => ?_).trans (List.map_id' l)
    exact (List.nodup_cons.mp hnodup).1 (List.mem_map.mpr ⟨x, hl hx, heq⟩)
  rw [List.map_append, List.map_cons, if_pos rfl, hother before (List.subset_append_left _ _),
    hother after (List.subset_append_right _ _)]

namespace Slot

variable (z : Slot) {earlier later : List Table} {t : Table} {tags : List Tag}

/-- One table of the schema has the tags that it is bound to so far. -/
def bind (earlier : List Table) (t : Table) (later : List Table) (g : Tagging) : Database :=
  z.fill (earlier ++ { t with tags := g.bound } :: later) g.tags

variable {z} {g : Tagging}

theorem linkTag_bind (hn : ∀ k, ((z.bind earlier t later g).arena k).Nodup) {j : Id .tag}
    (hj : j ∈ g.tags.map (·.id)) :
    (z.bind earlier t later g).linkTag t.id j = z.bind earlier t later (g.link t.id j) := by
  obtain ⟨v, hv, rfl⟩ := List.mem_map.mp hj
  have htables := apart_of_nodup_flatMap (f := Table.id) (hn .table)
    (List.mem_append_right earlier (List.mem_cons_self (a := { t with tags := g.bound })))
  have htags := apart_of_nodup_flatMap (f := Tag.id) (hn .tag) hv
  let table (u : Table) : Table := if u.id = t.id then { u with tags := pushNew u.tags v.id } else u
  let tag (u : Tag) : Tag := if u.id = v.id then { u with tables := pushNew u.tables t.id } else u
  let link (s : Schema) : Schema :=
    { s with tables := s.tables.map table, tags := s.tags.map tag }
  have hother : ∀ l, l ⊆ z.before ++ z.after → l.map link = l := by
    intro l hl
    refine (List.map_congr_left fun s hs => ?_).trans (List.map_id' l)
    have ht : s.tables.map table = s.tables :=
      (List.map_congr_left fun u hu => if_neg (htables s (hl hs) u hu)).trans (List.map_id' _)
    have hg : s.tags.map tag = s.tags :=
      (List.map_congr_left fun u hu => if_neg (htags s (hl hs) u hu)).trans (List.map_id' _)
    simp only [link, ht, hg]
  have hone : (earlier ++ { t with tags := g.bound } :: later).map table
      = earlier ++ { t with tags := pushNew g.bound v.id } :: later := by
    apply map_ite_of_nodup (f := Table.id) (c := { t with tags := g.bound })
    have hnodup := hn .table
    rw [Database.arena, Database.tables, List.map_flatMap, List.nodup_flatMap] at hnodup
    exact hnodup.1 _ (List.mem_append_right _ List.mem_cons_self)
  have hlink : ∀ db : Database, db.linkTag t.id v.id
      = { db with schemas := db.schemas.map link } := by
    intro db
    simp only [Database.linkTag, Database.mapTags, Database.mapTables, List.map_map]
    rfl
  rw [hlink]
  unfold bind fill
  rw [List.map_append, List.map_cons, hother z.before (List.subset_append_left _ _),
    hother z.after (List.subset_append_right _ _)]
  simp only [link, filled, hone]
  rfl

theorem place_bind (hn : ∀ k, ((z.bind earlier t later g).arena k).Nodup) (v : Tag) :
    (z.bind earlier t later g).place z.schema.id (.tag v)
      = z.bind earlier t later { g with tags := g.tags ++ [v] } := by
  have hone := map_ite_of_nodup (f := Schema.id) (g := (·.insert (.tag v))) (hn .schema)
  rw [Database.place, show (Entity.tag v).tie = fun t => t from rfl, Database.relink_self,
    Database.updateSchema]
  exact congrArg (fun ss => { z.database with schemas := ss }) hone

end Slot

/-! Drafts that work on a store follows. -/

namespace Access

variable {α β γ δ : Type} {a : Assembly} {x : Access β} {y : Drafting α} {f : α → β}
  {db : α → Database}

/-- Work on the store of a tree comes to the store of the tree that is drafted. Where the draft is
rejected, so is the work, with part of it done. -/
def Follows (x : Access β) (y : Drafting α) (a : Assembly) (f : α → β) (db : α → Database) : Prop :=
  y.Meets a.ids
    (fun v ids => Ends x a.layout (.ok (f v)) (Assembly.layout ⟨db v, ids⟩) ∧
      Assembly.Numbered ⟨db v, ids⟩)
    (fun r _ => ∃ st, Ends x a.layout (.error r) st)

theorem Follows.bind {g : β → Access γ} {h : α → Drafting δ} {f' : δ → γ} {db' : δ → Database}
    (hx : Follows x y a f db)
    (hg : ∀ v ids, Assembly.Numbered ⟨db v, ids⟩ → Follows (g (f v)) (h v) ⟨db v, ids⟩ f' db') :
    Follows (x >>= g) (y >>= h) a f' db' := by
  apply Attempt.Meets.bind
  · apply Attempt.Meets.mono hx (fun _ _ hv => hv)
    rintro r - ⟨st, hends⟩
    exact ⟨st, hends.bind_error _⟩
  · rintro v ids ⟨hends, hnumbered⟩
    apply Attempt.Meets.mono (hg v ids hnumbered)
    · exact fun w ids' hw => ⟨hends.bind hw.1, hw.2⟩
    · rintro r - ⟨st, hends'⟩
      exact ⟨st, hends.bind hends'⟩

/-- What is looked up changes nothing. -/
theorem Follows.read {x : Access γ} {g : γ → Access β} {v : γ}
    (hx : Ends x a.layout (.ok v) a.layout) (hg : Follows (g v) y a f db) :
    Follows (x >>= g) y a f db := by
  apply Attempt.Meets.mono hg
  · exact fun w ids hw => ⟨hx.bind hw.1, hw.2⟩
  · rintro r - ⟨st, hends⟩
    exact ⟨st, hx.bind hends⟩

end Access

namespace Store

open Access

variable {z : Slot} {earlier later : List Table} {t : Table} {g : Tagging} {ids : Allocator}

theorem follows_linkTag (hnumbered : Assembly.Numbered ⟨z.bind earlier t later g, ids⟩)
    {j : Id .tag} (hj : j ∈ g.tags.map (·.id)) :
    Follows (do update t.id (tagged j); update j (listing t.id)) (pure (g.link t.id j))
      ⟨z.bind earlier t later g, ids⟩ (fun _ => ()) (z.bind earlier t later) := by
  have hn := fun k => Database.nodup_arena (hnumbered.nodup k)
  have htable : t.id ∈ (z.bind earlier t later g).arena .table :=
    List.mem_map.mpr ⟨{ t with tags := g.bound }, List.mem_flatMap.mpr
      ⟨_, z.mem_fill, List.mem_append_right earlier List.mem_cons_self⟩, rfl⟩
  have htag : j ∈ (z.bind earlier t later g).arena .tag := by
    obtain ⟨v, hv, rfl⟩ := List.mem_map.mp hj
    exact List.mem_map.mpr ⟨v, List.mem_flatMap.mpr ⟨_, z.mem_fill, hv⟩, rfl⟩
  have hends := ends_linkTag (a := ⟨z.bind earlier t later g, ids⟩) hn htable htag
  have hsame : ∀ k, ((z.bind earlier t later g).linkTag t.id j).numbers k
      = (z.bind earlier t later g).numbers k := by
    intro k
    rw [Database.numbers_eq_arena, arena_linkTag, Database.numbers_eq_arena]
  have hlinked : Assembly.Numbered ⟨(z.bind earlier t later g).linkTag t.id j, ids⟩ :=
    hnumbered.of_adds (Assembly.adds_of_same (.refl ids) hsame)
  rw [Slot.linkTag_bind hn hj] at hends hlinked
  exact Attempt.meets_pure ⟨hends, hlinked⟩

theorem ends_findTag (hn : ∀ k, ((z.bind earlier t later g).arena k).Nodup) (name : String)
    (ids : Allocator) :
    Ends (findTag ((z.filled (earlier ++ { t with tags := g.bound } :: later) g.tags).stored
        z.database.id) name)
      (Assembly.layout ⟨z.bind earlier t later g, ids⟩)
      (.ok ((g.tags.find? (·.name = name)).map (·.id)))
      (Assembly.layout ⟨z.bind earlier t later g, ids⟩) :=
  ends_find? (k := .tag) (a := ⟨z.bind earlier t later g, ids⟩) hn (f := Tag.stored z.schema.id)
    (fun _ hv => Database.mem_rows_tag z.mem_fill hv) (·.name = name)

/-- A tag that the schema does not have is created there. -/
theorem ends_pushTag (hn : ∀ k, ((z.bind earlier t later g).arena k).Nodup) {v : Tag}
    (hnew : g.tags.find? (·.name = v.name) = none)
    (hn' : ∀ k, (((z.bind earlier t later g).place z.schema.id (.tag v)).arena k).Nodup)
    (ids : Allocator) :
    Ends (pushTag z.schema.id (v.stored z.schema.id))
      (Assembly.layout ⟨z.bind earlier t later g, ids⟩) (.ok v.id)
      (Assembly.layout ⟨z.bind earlier t later { g with tags := g.tags ++ [v] }, ids⟩) := by
  have hfind := ends_findTag hn v.name ids
  rw [hnew] at hfind
  have hcheck : Ends (checkName z.schema.id .tag (·.tags) (·.name = v.name) v.name v.token)
      (Assembly.layout ⟨z.bind earlier t later g, ids⟩) (.ok ())
      (Assembly.layout ⟨z.bind earlier t later g, ids⟩) :=
    (ends_row_layout (a := ⟨z.bind earlier t later g, ids⟩) hn
      (Database.mem_rows_schema z.mem_fill)).bind (hfind.bind (ends_pure () _))
  rw [← Slot.place_bind hn]
  exact hcheck.seq
    (ends_addTag (a := ⟨z.bind earlier t later g, ids⟩) hn ⟨_, z.mem_fill, rfl⟩ hn')

theorem follows_pushTag (hnumbered : Assembly.Numbered ⟨z.bind earlier t later g, ids⟩)
    {m : Decl.Mention} (hnew : g.tags.find? (·.name = m.name) = none) :
    Follows (drafted (Stored.draftMention z.schema.id m) >>= pushTag z.schema.id) (issue .tag)
      ⟨z.bind earlier t later g, ids⟩ (fun i => i) fun i => z.bind earlier t later
        { g with tags := g.tags ++ [{ name := m.name, id := i, token := m.token }] } := by
  have hn := fun k => Database.nodup_arena (hnumbered.nodup k)
  have hdraft := drafts_issue (z.bind earlier t later g) (fun i => Tag.stored z.schema.id
    { name := m.name, id := i, token := m.token }) ids
  rcases hissue : (issue .tag).run ids with ⟨r | i, ids'⟩
  · rw [hissue] at hdraft
    exact Attempt.meets_of_run_error hissue ⟨_, hdraft.bind_error _⟩
  · rw [hissue] at hdraft
    obtain ⟨hdrew, hnumbers⟩ := (draws_issue .tag (Q := fun _ => False) ids).of_run_ok hissue
    let v : Tag := { name := m.name, id := i, token := m.token }
    have hplaced : Assembly.Numbered
        ⟨(z.bind earlier t later g).place z.schema.id (.tag v), ids'⟩ := by
      apply hnumbered.of_adds
      apply Assembly.adds_of_supplies ⟨_, hdrew, hnumbers⟩
      exact Database.numbers_place (hnumbered.nodup .schema) ⟨_, z.mem_fill, rfl⟩ _
    have hpush := ends_pushTag hn (v := v) hnew
      (fun k => Database.nodup_arena (hplaced.nodup k)) ids'
    rw [Slot.place_bind hn] at hplaced
    exact Attempt.meets_of_run_ok hissue ⟨hdraft.bind hpush, hplaced⟩

/-- A tag that a table mentions is linked to it, once it is there. -/
theorem follows_bindMention (hnumbered : Assembly.Numbered ⟨z.bind earlier t later g, ids⟩)
    (m : Decl.Mention) :
    Follows (bindMention z.schema.id t.id m) (g.mention t.id m) ⟨z.bind earlier t later g, ids⟩
      (fun _ => ()) (z.bind earlier t later) := by
  have hn := fun k => Database.nodup_arena (hnumbered.nodup k)
  unfold bindMention Tagging.mention
  apply Follows.read (ends_row_layout (a := ⟨z.bind earlier t later g, ids⟩) hn
    (Database.mem_rows_schema z.mem_fill))
  apply Follows.read (ends_findTag hn m.name ids)
  cases hf : g.tags.find? (·.name = m.name) with
  | some v =>
    exact follows_linkTag hnumbered (List.mem_map.mpr ⟨v, List.mem_of_find?_eq_some hf, rfl⟩)
  | none =>
    dsimp only [Option.map_none]
    rw [← bind_assoc]
    apply (follows_pushTag hnumbered hf).bind
    intro i ids' hnumbered'
    exact follows_linkTag hnumbered'
      (List.mem_map.mpr ⟨_, List.mem_append_right _ List.mem_cons_self, rfl⟩)

theorem follows_bindMentions (hnumbered : Assembly.Numbered ⟨z.bind earlier t later g, ids⟩)
    (ms : List Decl.Mention) :
    Follows (ms.forM (bindMention z.schema.id t.id)) (g.mentions t.id ms)
      ⟨z.bind earlier t later g, ids⟩ (fun _ => ()) (z.bind earlier t later) := by
  induction ms generalizing g ids with
  | nil => exact Attempt.meets_pure ⟨ends_pure () _, hnumbered⟩
  | cons m ms ih => exact (follows_bindMention hnumbered m).bind fun g' ids' h => ih h

/-- The tables of a schema, of which those before are bound already. -/
theorem follows_bindTables (z : Slot) (earlier : List Table) {tags : List Tag} {ts : List Table}
    (hnumbered : Assembly.Numbered ⟨z.fill (earlier ++ ts) tags, ids⟩) :
    Follows ((ts.map (·.id)).forM fun table : Id .table => do
        (← row table).mentions.forM (bindMention z.schema.id table))
      (bindTables tags ts) ⟨z.fill (earlier ++ ts) tags, ids⟩ (fun _ => ())
      fun p => z.fill (earlier ++ p.1) p.2 := by
  induction ts generalizing earlier tags ids with
  | nil => exact Attempt.meets_pure ⟨ends_pure () _, hnumbered⟩
  | cons t ts ih =>
    have hn := fun k => Database.nodup_arena (hnumbered.nodup k)
    have hrow := ends_row_layout (a := ⟨z.fill (earlier ++ t :: ts) tags, ids⟩) hn
      (Database.mem_rows_table z.mem_fill (List.mem_append_right earlier List.mem_cons_self))
    have hmentions := follows_bindMentions (t := t) (g := { tags, bound := t.tags }) hnumbered
      t.mentions
    apply (Follows.read hrow hmentions).bind
    intro g ids' hnumbered'
    have hmoved : z.bind earlier t ts g
        = z.fill ((earlier ++ [{ t with tags := g.bound }]) ++ ts) g.tags := by
      rw [Slot.bind, List.append_cons]
    rw [hmoved] at hnumbered' ⊢
    have hrest := ih _ hnumbered'
    simp only [List.append_assoc, List.singleton_append] at hrest
    rw [List.append_assoc, List.singleton_append]
    exact Attempt.Meets.bind hrest fun _ _ hp => Attempt.meets_pure hp

theorem follows_bindSchema {s : Schema} {before after : List Schema} {db : Database}
    (hnumbered : Assembly.Numbered ⟨{ db with schemas := before ++ s :: after }, ids⟩) :
    Follows (do
        (← row s.id).tables.forM fun table : Id .table => do
          (← row table).mentions.forM (bindMention s.id table))
      s.bindTags ⟨{ db with schemas := before ++ s :: after }, ids⟩ (fun _ => ())
      fun s' => { db with schemas := before ++ s' :: after } := by
  let z : Slot := ⟨db, before, s, after⟩
  have hrow := ends_row_layout (a := ⟨z.fill s.tables s.tags, ids⟩)
    (fun k => Database.nodup_arena (hnumbered.nodup k)) (Database.mem_rows_schema z.mem_fill)
  apply Follows.read hrow
  have htables := follows_bindTables z [] hnumbered
  exact Attempt.Meets.bind htables fun _ _ hp => Attempt.meets_pure hp

/-- The schemas that are left, of which those before are bound already. -/
theorem follows_bindSchemas (db : Database) (before : List Schema) {ss : List Schema}
    (hnumbered : Assembly.Numbered ⟨{ db with schemas := before ++ ss }, ids⟩) :
    Follows ((ss.map (·.id)).forM fun schema : Id .schema => do
        (← row schema).tables.forM fun table : Id .table => do
          (← row table).mentions.forM (bindMention schema table))
      (Attempt.mapEach Schema.bindTags ss) ⟨{ db with schemas := before ++ ss }, ids⟩ (fun _ => ())
      fun ss' => { db with schemas := before ++ ss' } := by
  induction ss generalizing before ids with
  | nil => exact Attempt.meets_pure ⟨ends_pure () _, hnumbered⟩
  | cons s ss ih =>
    apply (follows_bindSchema hnumbered).bind
    intro s' ids' hnumbered'
    rw [List.append_cons] at hnumbered' ⊢
    have hrest := ih _ hnumbered'
    simp only [List.append_assoc, List.singleton_append] at hrest ⊢
    exact Attempt.Meets.bind hrest fun _ _ hp => Attempt.meets_pure hp

/-- Binding tags in a store comes to the store of the tree with its tags bound. -/
theorem meets_bindTags {a : Assembly} (ha : a.Numbered) :
    Assembly.bindTags.Meets a (fun _ b => Ends bindTags a.layout (.ok ()) b.layout)
      (fun r _ => ∃ st, Ends bindTags a.layout (.error r) st) := by
  have hfollows := follows_bindSchemas a.database [] ha
  unfold Assembly.bindTags
  apply Attempt.Meets.bind (P := fun _ b => Ends bindTags a.layout (.ok ()) b.layout)
  · apply Assembly.meets_insert
    apply Attempt.Meets.mono hfollows
    · exact fun ss ids h => h.1.get
    · rintro r ids ⟨st, hends⟩
      exact ⟨st, hends.get⟩
  · exact fun _ _ h => Attempt.meets_pure h

end Store

end Catalog
