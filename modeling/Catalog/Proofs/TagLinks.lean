import Catalog.Proofs.TagLinks.Listed
import Catalog.Proofs.Tree

/-!
Tables and tags in a database that has been built. A table has the tags that it was declared with,
a tag has the tables that were declared with it, and tags that are missing from the declarations
come after those that are not.
-/
namespace Catalog

/-- Tags added for mentions of names other than those known: one for each, where it is mentioned
first, with nothing but the name and the token. -/
structure TagsAdded (known : List String) (ms : List Decl.Mention) (tags : List Tag) : Prop where
  names : tags.map (·.name) = ((ms.map (·.name)).filter (· ∉ known)).eraseDups
  bare : ∀ g ∈ tags, g.note = none ∧ g.color = none
  tokens : ∀ g ∈ tags, ms.find? (·.name = g.name) = some { name := g.name, token := g.token }

/-- The tables and tags of a schema are linked as it was declared. -/
structure Schema.TaggedAs (s : Schema) (d : Decl.Schema) : Prop where
  /-- The tags of a table are tags of its schema, by the names that it was declared with. -/
  tables : List.Forall₂ (fun t e => t.toTableInfo = e.toTableInfo ∧ t.mentions = e.tags ∧
    List.Forall₂ (TagFor s.tags) t.tags (e.tags.map (·.name)).eraseDups) s.tables d.tables
  /-- A tag lists the tables of its schema that were declared with it. -/
  listed : ∀ g ∈ s.tags, g.tables = (s.tables.filter (·.isTagged g.name)).map (·.id)
  /-- Declared tags come first. -/
  tags : ∃ own added, s.tags = own ++ added ∧
    List.Forall₂ (fun g e => g.toTagInfo = e.toTagInfo ∧ g.token = e.token) own d.tags ∧
    TagsAdded (d.tags.map (·.name)) (d.tables.flatMap (·.tags)) added

namespace Decl.Schema

theorem names_impliedTags (known : List String) (ms : List Mention) :
    (impliedTags known ms).map (·.name)
      = ((ms.map (·.name)).filter (· ∉ known)).eraseDups := by
  induction ms generalizing known with
  | nil => rfl
  | cons m ms ih =>
    rw [impliedTags_cons, List.map_cons]
    by_cases hm : m.name ∈ known
    · rw [if_pos hm, ih, List.filter_cons_of_neg (by simpa using hm)]
    · have hrest : (ms.map (·.name)).filter (· ∉ m.name :: known)
          = ((ms.map (·.name)).filter (· ∉ known)).filter (fun name => !name == m.name) := by
        rw [List.filter_filter]
        apply List.filter_congr
        intro name _
        by_cases hname : name = m.name <;> simp [hname]
      rw [if_neg hm, List.map_cons, ih, hrest, List.filter_cons_of_pos (by simpa using hm),
        List.eraseDups_cons]

theorem find?_of_mem_impliedTags {known : List String} {ms : List Mention} {g : Tag}
    (hg : g ∈ impliedTags known ms) :
    ms.find? (·.name = g.name) = some { name := g.name, token := g.token } := by
  induction ms generalizing known with
  | nil => cases hg
  | cons m ms ih =>
    rw [impliedTags_cons] at hg
    -- A tag that a later mention implies has another name than the first one.
    have later : ∀ {known'}, m.name ∈ known' → g ∈ impliedTags known' ms →
        (m :: ms).find? (·.name = g.name) = some { name := g.name, token := g.token } := by
      intro known' hm hg'
      have hnew := (mem_impliedTags_name.mp (List.mem_map.mpr ⟨g, hg', rfl⟩)).1
      have hne : m.name ≠ g.name := fun heq => hnew (heq ▸ hm)
      rw [List.find?_cons_of_neg (by simpa using hne)]
      exact ih hg'
    split at hg
    · rename_i hm
      exact later hm hg
    · rcases List.mem_cons.mp hg with rfl | hg
      · exact List.find?_cons_of_pos (by simp)
      · exact later List.mem_cons_self hg

theorem bare_of_mem_impliedTags {known : List String} {ms : List Mention} {g : Tag}
    (hg : g ∈ impliedTags known ms) : g.note = none ∧ g.color = none := by
  induction ms generalizing known with
  | nil => cases hg
  | cons m ms ih =>
    rw [impliedTags_cons] at hg
    split at hg
    · exact ih hg
    · rcases List.mem_cons.mp hg with rfl | hg
      · exact ⟨rfl, rfl⟩
      · exact ih hg

end Decl.Schema

theorem tagsAdded_of_declared {known : List String} {ms : List Decl.Mention} {tags : List Tag}
    (h : tags.map (·.declared) = Decl.Schema.impliedTags known ms) : TagsAdded known ms tags := by
  have hmem : ∀ g ∈ tags, g.declared ∈ Decl.Schema.impliedTags known ms :=
    fun g hg => h ▸ List.mem_map.mpr ⟨g, hg, rfl⟩
  constructor
  · rw [← Decl.Schema.names_impliedTags, ← h, List.map_map]
    rfl
  · exact fun g hg => Decl.Schema.bare_of_mem_impliedTags (hmem g hg)
  · exact fun g hg => Decl.Schema.find?_of_mem_impliedTags (hmem g hg)

theorem Schema.Mirrors.taggedAs {db : Database} {c : Config} {o : Decl.Outline} {s : Schema}
    {d : Decl.Schema} (h : s.Mirrors db c o d.withImpliedTags)
    (htagged : ∀ t ∈ s.tables, t.Tagged s) (hlisted : s.Listed) : s.TaggedAs d where
  tables := by
    apply paired_imp_of_mem h.tables
    intro t ht e _ hdecl
    have hmentions : t.mentions = e.tags := congrArg (·.tags) hdecl
    refine ⟨Table.info_of_declared hdecl, hmentions, ?_⟩
    rw [← hmentions]
    exact htagged t ht
  listed := hlisted
  tags := by
    have hall : s.tags.map (·.declared) = d.tags.map (·.bare) ++
        Decl.Schema.impliedTags (d.tags.map (·.name)) (d.tables.flatMap (·.tags)) := by
      rw [← impliedTags_bare, ← List.map_append]
      exact paired_eq_iff.mp h.tags
    obtain ⟨own, added, hsplit, hown, hadded⟩ := List.map_eq_append_iff.mp hall
    refine ⟨own, added, hsplit, ?_, tagsAdded_of_declared hadded⟩
    apply (paired_eq_iff.mpr hown).imp
    intro g e hdecl
    exact ⟨congrArg Decl.Tag.toTagInfo hdecl, congrArg (·.token) hdecl⟩

namespace Assembly

variable {a : Assembly} {bundle : Decl.Bundle} {c : Config}

theorem taggedAs_of_build (h : build bundle c = .ok a) :
    List.Forall₂ Schema.TaggedAs a.database.schemas (bundle.outline c) := by
  have hm := (mirrors_of_build h).mirrors
  apply paired_imp_of_mem (List.forall₂_map_right_iff.mp hm.schemas)
  intro s hs d _ hd
  exact hd.taggedAs (hm.tagged rfl s hs) (listed_of_build h s hs)

/-- Links between tables and tags go both ways. -/
theorem mem_tags_iff_of_build (h : build bundle c = .ok a) {t : Table} {g : Tag}
    (ht : t ∈ a.database.tables) (hg : g ∈ a.database.tags) : g.id ∈ t.tags ↔ t.id ∈ g.tables := by
  have hsound : a.Sound := (Reachable.build h).sound
  have htagged := (mirrors_of_build h).mirrors.tagged rfl
  obtain ⟨s, hs, ht⟩ := List.mem_flatMap.mp ht
  obtain ⟨s', hs', hg⟩ := List.mem_flatMap.mp hg
  rw [listed_of_build h s' hs' g hg, Schema.listed, List.mem_map]
  constructor
  · intro hmem
    obtain ⟨name, hname, g', hg', hid, rfl⟩ := exists_right_of_paired (htagged s hs t ht) hmem
    have hids := hsound.nodup_arena .tag
    rw [Database.arena, Database.tags, List.map_flatMap] at hids
    obtain ⟨rfl, rfl⟩ := eq_of_nodup_flatMap hids hs hg' hs' hg hid
    refine ⟨t, List.mem_filter.mpr ⟨ht, ?_⟩, rfl⟩
    simpa [Table.isTagged] using List.mem_eraseDups.mp hname
  · rintro ⟨t', ht', hid⟩
    obtain ⟨ht', hname⟩ := List.mem_filter.mp ht'
    obtain ⟨rfl, rfl⟩ :=
      Database.eq_of_table_id (hsound.numbered.nodup .table) hs ht hs' ht' hid.symm
    have hmention : g.name ∈ (t.mentions.map (·.name)).eraseDups := by
      rw [List.mem_eraseDups]
      simpa [Table.isTagged] using hname
    obtain ⟨i, hi, g', hg', rfl, hname'⟩ := exists_left_of_paired (htagged s hs t ht) hmention
    have hnames : (s.tags.map (·.name)).Nodup := (hsound.named.distinct s hs).children .tag
    rw [List.inj_on_of_nodup_map hnames hg hg' hname'.symm]
    exact hi

end Assembly

/-- Binding tags is complete, exact and symmetric: schema by schema, tables and tags are linked as
they were declared, and tags that no declaration has are added where they are mentioned first. -/
theorem Database.taggedAs_outline {b : Decl.Bundle} {c : Config} {db : Database}
    (h : build b c = .ok db) : List.Forall₂ Schema.TaggedAs db.schemas (b.outline c) ∧
      ∀ t ∈ db.tables, ∀ g ∈ db.tags, g.id ∈ t.tags ↔ t.id ∈ g.tables := by
  obtain ⟨a, ha, rfl⟩ := build_eq_ok_iff.mp h
  exact ⟨Assembly.taggedAs_of_build ha, fun _ ht _ hg => Assembly.mem_tags_iff_of_build ha ht hg⟩

/-- Tags named twice by a table, by two tables, in two schemas, and before they are declared. -/
def Decl.Bundle.shelves : Decl.Bundle where
  schemas := [
    { name := "shop",
      tables := [
        { name := "items", tags := [{ name := "core" }, { name := "hot" }, { name := "core" }] }],
      tags := [{ name := "cold", note := some "kept" }] }]
  tables := [
    { name := "carts", schemaName := some "shop", tags := [{ name := "hot" }, { name := "new" }] },
    { name := "users", tags := [{ name := "core" }] }]
  tags := [{ name := "hot", schemaName := some "shop", color := some "red" }]

theorem Database.taggedAs_outline_shelves : ∃ db, build .shelves {} = .ok db ∧
    List.Forall₂ Schema.TaggedAs db.schemas (Decl.Bundle.outline .shelves {}) ∧
    (∀ t ∈ db.tables, ∀ g ∈ db.tags, g.id ∈ t.tags ↔ t.id ∈ g.tables) ∧
    db.tags.map (fun g => (g.name, g.tables.map (·.toNat))) =
      [("cold", []), ("hot", [1, 2]), ("core", [1]), ("new", [2]), ("core", [3])] := by
  have hbuilt : (build .shelves {}).toOption.any (fun db =>
      decide (db.tags.map (fun g => (g.name, g.tables.map (·.toNat))) =
        [("cold", []), ("hot", [1, 2]), ("core", [1]), ("new", [2]), ("core", [3])])) = true := by
    decide +kernel
  obtain ⟨db, hdb, hlists⟩ := exists_build_of_any hbuilt
  obtain ⟨htagged, hboth⟩ := taggedAs_outline hdb
  exact ⟨db, hdb, htagged, hboth, of_decide_eq_true hlists⟩

end Catalog
