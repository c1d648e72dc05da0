import Catalog.Proofs.Namespace
import Catalog.Proofs.Tree

/-!
What the default schema holds in a built database: the records that name no schema, where the
default name leads. The mark of the default schema tells whether it holds anything, by whatever way.
-/
namespace Catalog

/-- A schema holds some entity. -/
def Schema.Populated (s : Schema) : Prop :=
  s.tables ≠ [] ∨ s.enums ≠ [] ∨ s.refs ≠ [] ∨ s.tags ≠ [] ∨ s.tableGroups ≠ []

/-- The records outside of schema declarations that name no schema are children of a schema, each
one for itself, in their order. -/
structure Schema.Receives (db : Database) (c : Config) (b : Decl.Bundle) (s : Schema) : Prop where
  tables : List.SublistForall₂ (fun d t => t.declared = d.bare)
    (b.tables.filter (·.schemaName = none)) s.tables
  tags : List.SublistForall₂ (fun d t => t.declared = d.bare)
    (b.tags.filter (·.schemaName = none)) s.tags
  refs : List.SublistForall₂ (fun d r => r.Mirrors db c (b.outline c) d)
    (b.refs.filter (·.schemaName = none)) s.refs
  enums : List.SublistForall₂ (fun d e => e.declared = d.bare)
    (b.enums.filter (·.schemaName = none)) s.enums
  tableGroups : List.SublistForall₂ (fun d g => g.Mirrors db c (b.outline c) d)
    (b.tableGroups.filter (·.schemaName = none)) s.tableGroups

namespace Decl.Bundle

/-- Some record outside of schema declarations names no schema. -/
def LeavesDefault (b : Bundle) : Prop :=
  ∃ r ∈ b.routed, r.schemaName = none

/-- A declared schema with the default schema name as its alias has it as its name as well. -/
def KeepsDefault (b : Bundle) (c : Config) : Prop :=
  ∀ s ∈ b.schemas, s.aliasName = some c.defaultSchemaName → s.name = c.defaultSchemaName

instance (b : Bundle) : Decidable b.LeavesDefault :=
  inferInstanceAs (Decidable (∃ r ∈ b.routed, r.schemaName = none))

instance (b : Bundle) (c : Config) : Decidable (b.KeepsDefault c) :=
  inferInstanceAs (Decidable (∀ s ∈ b.schemas, s.aliasName = some c.defaultSchemaName →
    s.name = c.defaultSchemaName))

end Decl.Bundle

/-- The default schema is there with all records that name no schema, and the database is marked. -/
def Database.HasDefault (db : Database) (b : Decl.Bundle) (c : Config) : Prop :=
  db.hasDefaultSchema = true ∧
    ∃ s ∈ db.schemas, s.name = c.defaultSchemaName ∧ s.Receives db c b

/-! Parts of paired lists. -/

section Paired

variable {α β : Type} {R : α → β → Prop} {l : List α} {l' k : List β}

theorem eq_nil_iff_of_paired (h : List.Forall₂ R l l') : l = [] ↔ l' = [] := by
  rw [← List.length_eq_zero_iff, ← List.length_eq_zero_iff, h.length_eq]

theorem sublistForall₂_of_paired (h : List.Forall₂ R l l') (hk : k.Sublist l') :
    List.SublistForall₂ (fun b a => R a b) k l := by
  induction h generalizing k with
  | nil =>
    rw [List.sublist_nil.mp hk]
    exact .nil
  | cons hab _ ih =>
    cases hk with
    | cons _ hk => exact .cons_right (ih hk)
    | cons_cons _ hk => exact .cons hab (ih hk)

theorem ne_nil_of_sublistForall₂ {R : β → α → Prop} (h : List.SublistForall₂ R k l) {b : β}
    (hb : b ∈ k) : l ≠ [] := by
  rintro rfl
  cases h
  cases hb

/-- What passes the first test passes the second. -/
theorem filter_sublist_append {p q : β → Bool} (h : ∀ d, p d = true → q d = true)
    (own records : List β) : (records.filter p).Sublist (own ++ records.filter q) :=
  (List.monotone_filter_right records h).trans (List.sublist_append_right ..)

end Paired

/-! Mirroring does not depend on what look-ups do not see. -/

section Alike

variable {db : Database} {c : Config} {o o' : Decl.Outline}

theorem Endpoint.Mirrors.of_alike {e : Endpoint} {d : Decl.Endpoint} (h : e.Mirrors db c o d)
    (ha : o.Alike c o') : e.Mirrors db c o' d where
  info := h.info
  token := h.token
  table := by
    rw [← ha.tablePath?]
    exact h.table
  fields := by
    simp only [← ha.fieldPath?]
    exact h.fields

theorem Ref.Mirrors.of_alike {r : Ref} {d : Decl.Ref} (h : r.Mirrors db c o d)
    (ha : o.Alike c o') : r.Mirrors db c o' d where
  info := h.info
  token := h.token
  endpoints := h.endpoints.imp fun _ _ he => he.of_alike ha

theorem TableGroup.Mirrors.of_alike {g : TableGroup} {d : Decl.TableGroup}
    (h : g.Mirrors db c o d) (ha : o.Alike c o') : g.Mirrors db c o' d where
  info := h.info
  token := h.token
  gathers := ha.gathers h.gathers
  tables := ha.members_eq d ▸ h.tables

end Alike

/-! What a schema holds. -/

theorem Schema.Mirrors.populated_iff {db : Database} {c : Config} {o : Decl.Outline} {s : Schema}
    {d : Decl.Schema} (h : s.Mirrors db c o d) : s.Populated ↔ d.isPopulated = true := by
  rw [Schema.Populated, Ne, Ne, Ne, Ne, Ne, eq_nil_iff_of_paired h.tables,
    eq_nil_iff_of_paired h.enums, eq_nil_iff_of_paired h.refs, eq_nil_iff_of_paired h.tags,
    eq_nil_iff_of_paired h.tableGroups, d.isPopulated_eq]
  simp only [Bool.not_eq_true', Bool.and_eq_false_iff, List.isEmpty_eq_false_iff]
  tauto

theorem Schema.Receives.populated {db : Database} {c : Config} {b : Decl.Bundle} {s : Schema}
    (h : s.Receives db c b) (hb : b.LeavesDefault) : s.Populated := by
  obtain ⟨r, hr, hnone⟩ := hb
  simp only [Decl.Bundle.routed, List.mem_append, List.mem_map] at hr
  have hmem : ∀ {δ : Type} {ds : List δ} {schemaName : δ → Option String} {d : δ}, d ∈ ds →
      schemaName d = none → d ∈ ds.filter (schemaName · = none) :=
    fun hd hname => List.mem_filter.mpr ⟨hd, decide_eq_true hname⟩
  rcases hr with (((⟨d, hd, rfl⟩ | ⟨d, hd, rfl⟩) | ⟨d, hd, rfl⟩) | ⟨d, hd, rfl⟩) | ⟨d, hd, rfl⟩
  · exact .inl (ne_nil_of_sublistForall₂ h.tables (hmem hd hnone))
  · exact .inr (.inr (.inr (.inl (ne_nil_of_sublistForall₂ h.tags (hmem hd hnone)))))
  · exact .inr (.inr (.inl (ne_nil_of_sublistForall₂ h.refs (hmem hd hnone))))
  · exact .inr (.inl (ne_nil_of_sublistForall₂ h.enums (hmem hd hnone)))
  · exact .inr (.inr (.inr (.inr (ne_nil_of_sublistForall₂ h.tableGroups (hmem hd hnone)))))

/-- A schema that answers to the default name has got the records that name none. -/
theorem Schema.Mirrors.receives {db : Database} {c : Config} {o : Decl.Outline} {s : Schema}
    {b : Decl.Bundle} {r : Decl.Schema} (h : s.Mirrors db c o (b.gather c r).withImpliedTags)
    (ha : o.Alike c (b.outline c)) (hr : r.isNamed c.defaultSchemaName = true) :
    s.Receives db c b := by
  have hmine : ∀ name : Option String, decide (name = none) = true →
      r.isNamed (name.getD c.defaultSchemaName) = true := by
    intro name hname
    rw [of_decide_eq_true hname]
    exact hr
  exact {
    tables := sublistForall₂_of_paired h.tables (filter_sublist_append (fun _ => hmine _) ..)
    tags := sublistForall₂_of_paired h.tags
      ((filter_sublist_append (fun _ => hmine _) ..).trans (List.sublist_append_left ..))
    refs := sublistForall₂_of_paired (h.refs.imp fun _ _ hd => hd.of_alike ha)
      (filter_sublist_append (fun _ => hmine _) ..)
    enums := sublistForall₂_of_paired h.enums (filter_sublist_append (fun _ => hmine _) ..)
    tableGroups := sublistForall₂_of_paired (h.tableGroups.imp fun _ _ hd => hd.of_alike ha)
      (filter_sublist_append (fun _ => hmine _) ..) }

namespace Assembly

variable {b : Decl.Bundle} {c : Config} {a : Assembly}

/-- The mark of the default schema tells whether it holds anything. -/
theorem hasDefaultSchema_iff (h : build b c = .ok a) : a.database.hasDefaultSchema = true ↔
    ∃ s ∈ a.database.schemas, s.name = c.defaultSchemaName ∧ s.Populated := by
  have hm := (mirrors_of_build h).mirrors
  have hpaired := List.forall₂_map_right_iff.mp hm.schemas
  have hdefault : ∀ (s : Schema) (d : Decl.Schema),
      s.Mirrors a.database c ((b.outline c).map (·.withImpliedTags)) d.withImpliedTags →
        (Decl.Stage.isDefault c d = true ↔ s.name = c.defaultSchemaName ∧ s.Populated) := by
    intro s d hd
    rw [hd.populated_iff, d.isPopulated_withImpliedTags, hd.info, Decl.Stage.isDefault,
      Bool.and_eq_true, decide_eq_true_eq]
    rfl
  rw [hm.marked, List.any_eq_true]
  constructor
  · rintro ⟨d, hd, hisDefault⟩
    obtain ⟨s, hs, hsd⟩ := exists_left_of_paired hpaired hd
    exact ⟨s, hs, (hdefault s d hsd).mp hisDefault⟩
  · rintro ⟨s, hs, hpopulated⟩
    obtain ⟨d, hd, hsd⟩ := exists_right_of_paired hpaired hs
    exact ⟨d, hd, (hdefault s d hsd).mpr hpopulated⟩

/-- The default name leads to a schema if a record names none, and all such records are there. -/
theorem receives_of_build (h : build b c = .ok a) (hb : b.LeavesDefault) :
    ∃ s ∈ a.database.schemas, s.isNamed c.defaultSchemaName = true ∧
      s.Receives a.database c b := by
  obtain ⟨rec, hrec, hnone⟩ := hb
  obtain ⟨i, s, r, hs, -, hsn, hrn, hsr⟩ := exists_target_of_build h hrec
  rw [Decl.Item.target, hnone, Option.getD_none] at hsn hrn
  have halike := Decl.Outline.alike_withImpliedTags c (b.outline c)
  exact ⟨s, List.mem_of_getElem? hs, hsn, hsr.receives halike hrn⟩

/-- A schema that answers to the default name bears it, unless a declaration has given it another
one. -/
theorem name_eq_default_iff (h : build b c = .ok a) {s : Schema} (hs : s ∈ a.database.schemas)
    (hnamed : s.isNamed c.defaultSchemaName = true) :
    s.name = c.defaultSchemaName ↔ b.KeepsDefault c := by
  have hrostered := rostered_of_build h
  constructor
  · intro hname d hd halias
    obtain ⟨s', hs', hsd⟩ := exists_left_of_paired hrostered (List.mem_append_left _ hd)
    have hnamed' : s'.isNamed c.defaultSchemaName = true := by
      rw [hsd.isNamed]
      exact (d.isNamed_iff _).mpr (.inr halias)
    have hsame := (Reachable.build h).sound.named.eq_of_isNamed hs hs' hnamed hnamed'
    rw [← hname, hsame, hsd.info]
    rfl
  · intro hkeeps
    obtain ⟨r, hr, hsr⟩ := exists_right_of_paired hrostered hs
    have hname : s.name = r.name := congrArg (·.name) hsr.info
    rw [hsr.isNamed] at hnamed
    rw [hname]
    rcases List.mem_append.mp hr with hr | hr
    · exact ((r.isNamed_iff _).mp hnamed).elim id (hkeeps r hr)
    · obtain ⟨implied, -, rfl⟩ := List.mem_map.mp hr
      exact (c.isNamed_impliedSchema _ _).mp hnamed

end Assembly

end Catalog
