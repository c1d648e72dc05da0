import Catalog.Proofs.Reorder.Links

/-!
Enum links and the order of records. A field is linked to an enum by the names in its type, and
where enums are bound as they are inserted, by where the two are declared. Only places in declared
schemas matter for that, and these are the same in any order of the records outside of them.
-/
namespace Catalog

namespace Decl

theorem Schema.Grows.names {s s' : Schema} (h : s.Grows s') (sort : ChildSort) :
    s.names sort <+: s'.names sort := by
  cases sort with
  | table => exact h.tables.map _
  | enum => exact h.enums.map _
  | tag => exact h.tags.map _
  | tableGroup => exact h.tableGroups.map _

namespace Bundle

variable {b b' : Bundle} {p q : Place}

theorem exists_schema_of_nestedTable? (h : (b.nestedTable? p).isSome = true) :
    ∃ d, b.schemas[p.schema]? = some d ∧ p.item < (d.names .table).length := by
  obtain ⟨t, ht⟩ := Option.isSome_iff_exists.mp h
  obtain ⟨d, hd, ht⟩ := Option.bind_eq_some_iff.mp ht
  have hlt := (List.getElem?_eq_some_iff.mp ht).1
  exact ⟨d, hd, by rwa [Schema.names, List.length_map]⟩

theorem exists_schema_of_nestedEnum? {e : Enum} (h : b.nestedEnum? q = some e) :
    ∃ d, b.schemas[q.schema]? = some d ∧ q.item < (d.names .enum).length := by
  obtain ⟨d, hd, he⟩ := Option.bind_eq_some_iff.mp h
  have hlt := (List.getElem?_eq_some_iff.mp he).1
  exact ⟨d, hd, by rwa [Schema.names, List.length_map]⟩

theorem before_congr (h : b.schemas = b'.schemas) : b.Before p q ↔ b'.Before p q := by
  simp only [Before, nestedEnum?, nestedTable?, h]

end Bundle

end Decl

namespace Database

/-- Something stands at a place, by its name and that of its schema. -/
def NamedAt (db : Database) (sort : ChildSort) (p : Place) (schema name : String) : Prop :=
  ∃ s, db.schemas[p.schema]? = some s ∧ s.name = schema ∧ (s.names sort)[p.item]? = some name

/-- Names and enum links are in order, and what declared schemas hold comes first. -/
structure Settled (db : Database) (b : Decl.Bundle) (c : Config) : Prop where
  named : db.Named
  nodup : (db.arena .field).Nodup
  links : db.LinksEnums b c
  nested : ∀ (i : Nat) d, b.schemas[i]? = some d → ∃ s : Schema, db.schemas[i]? = some s ∧
    s.toSchemaInfo = d.toSchemaInfo ∧ ∀ sort, d.names sort <+: s.names sort

variable {db db' : Database} {b b' : Decl.Bundle} {c : Config} {p p' q q' : Place}
  {sort : ChildSort} {schema name schema' name' : String} {s s' : Schema} {t t' : Table}
  {f f' : Field} {e e' : Enum}

theorem exists_tableAt (hs : s ∈ db.schemas) (ht : t ∈ s.tables) :
    ∃ p, db.TableAt p t ∧ db.NamedAt .table p s.name t.name := by
  obtain ⟨i, hi⟩ := List.getElem?_of_mem hs
  obtain ⟨j, hj⟩ := List.getElem?_of_mem ht
  exact ⟨⟨i, j⟩, ⟨s, hi, hj⟩, s, hi, rfl, by simp [Schema.names, hj]⟩

theorem exists_enumAt (hs : s ∈ db.schemas) (he : e ∈ s.enums) :
    ∃ q, db.EnumAt q s e ∧ db.NamedAt .enum q s.name e.name := by
  obtain ⟨i, hi⟩ := List.getElem?_of_mem hs
  obtain ⟨j, hj⟩ := List.getElem?_of_mem he
  exact ⟨⟨i, j⟩, ⟨hi, hj⟩, s, hi, rfl, by simp [Schema.names, hj]⟩

namespace Settled

/-- What a declared schema holds has the same place in all databases. -/
theorem place_eq (h : db.Settled b c) (h' : db'.Settled b' c) (hb : b.schemas = b'.schemas)
    (hp : db.NamedAt sort p schema name) (hp' : db'.NamedAt sort p' schema name)
    {d : Decl.Schema} (hd : b.schemas[p.schema]? = some d)
    (hitem : p.item < (d.names sort).length) : p = p' := by
  obtain ⟨s, hs, rfl, hname⟩ := hp
  obtain ⟨s', hs', hschema, hname'⟩ := hp'
  obtain ⟨s₁, hs₁, hinfo, hnames⟩ := h.nested _ _ hd
  obtain rfl := Option.some.inj (hs.symm.trans hs₁)
  obtain ⟨s₂, hs₂, hinfo', hnames'⟩ := h'.nested _ _ (hb ▸ hd)
  have hi : p.schema = p'.schema := by
    apply index_eq_of_nodup h'.named.nodup_names hs₂ hs'
    rw [hschema, hinfo', hinfo]
  rw [← hi] at hs'
  obtain rfl := Option.some.inj (hs₂.symm.trans hs')
  have hplace : (s₂.names sort)[p.item]? = some name := by
    obtain ⟨rest, hrest⟩ := hnames sort
    obtain ⟨rest', hrest'⟩ := hnames' sort
    rw [← hrest, List.getElem?_append_left hitem] at hname
    rw [← hrest', List.getElem?_append_left hitem]
    exact hname
  have hnodup := (h'.named.distinct s₂ (List.mem_of_getElem? hs₂)).children sort
  have hlt := (List.getElem?_eq_some_iff.mp hplace).1
  have hj : p.item = p'.item := (List.getElem?_inj hlt hnodup).mp (hplace.trans hname'.symm)
  exact congrArg₂ Place.mk hi hj

/-- Whether a table is declared before an enum is told by their names. -/
theorem before (h : db.Settled b c) (h' : db'.Settled b' c) (hb : b.schemas = b'.schemas)
    (hp : db.NamedAt .table p schema name) (hp' : db'.NamedAt .table p' schema name)
    (hq : db.NamedAt .enum q schema' name') (hq' : db'.NamedAt .enum q' schema' name')
    (hbefore : b.Before p q) : b'.Before p' q' := by
  rw [← Decl.Bundle.before_congr hb]
  cases hnested' : b.nestedEnum? q' with
  | none => exact .inl hnested'
  | some e =>
    -- The enum is nested in either database or in none, and here it is.
    obtain ⟨d, hd, hitem⟩ := Decl.Bundle.exists_schema_of_nestedEnum? hnested'
    obtain rfl := h'.place_eq h hb.symm hq' hq (hb ▸ hd) hitem
    rcases hbefore with hnone | ⟨hnested, hle⟩
    · exact .inl hnone
    · obtain ⟨d', hd', hitem'⟩ := Decl.Bundle.exists_schema_of_nestedTable? hnested
      obtain rfl := h.place_eq h' hb hp hp' hd' hitem'
      exact .inr ⟨hnested, hle⟩

/-- Whether a field is linked to an enum is told by its type and by names. -/
theorem mem_fields_of_named (h : db.Settled b c) (h' : db'.Settled b' c)
    (hb : b.schemas = b'.schemas) {u u' : Schema}
    (hs : s ∈ db.schemas) (he : e ∈ s.enums) (hs' : s' ∈ db'.schemas) (he' : e' ∈ s'.enums)
    (hu : u ∈ db.schemas) (ht : t ∈ u.tables) (hf : f ∈ t.fields)
    (hu' : u' ∈ db'.schemas) (ht' : t' ∈ u'.tables) (hf' : f' ∈ t'.fields)
    (hschema : s'.name = s.name) (henum : e'.name = e.name) (howner : u'.name = u.name)
    (htable : t'.name = t.name) (hinfo : f'.toFieldInfo = f.toFieldInfo)
    (hmem : f.id ∈ e.fields) : f'.id ∈ e'.fields := by
  have mem_fields : ∀ {db : Database} {u t f}, u ∈ db.schemas → t ∈ u.tables → f ∈ t.fields →
      f ∈ db.fields :=
    fun hu ht hf => List.mem_flatMap.mpr ⟨_, List.mem_flatMap.mpr ⟨_, hu, ht⟩, hf⟩
  have mem_enums : ∀ {db : Database} {s e}, s ∈ db.schemas → e ∈ s.enums → e ∈ db.enums :=
    fun hs he => List.mem_flatMap.mpr ⟨_, hs, he⟩
  rw [h.links.mem_fields_iff h.nodup (mem_enums hs he) (mem_fields hu ht hf)] at hmem
  rw [h'.links.mem_fields_iff h'.nodup (mem_enums hs' he') (mem_fields hu' ht' hf')]
  obtain ⟨p, htp, hp⟩ := exists_tableAt hu ht
  obtain ⟨q, heq, hq⟩ := exists_enumAt hs he
  obtain ⟨p', htp', hp'⟩ := exists_tableAt hu' ht'
  obtain ⟨q', heq', hq'⟩ := exists_enumAt hs' he'
  obtain ⟨htype, hbound⟩ := (h.links.enumId_iff htp hf heq).mp hmem
  rw [howner, htable] at hp'
  rw [hschema, henum] at hq'
  rw [h'.links.enumId_iff htp' hf' heq', hinfo, hschema, henum]
  exact ⟨htype, hbound.imp_right (h.before h' hb hp hp' hq hq')⟩

end Settled

end Database

namespace Assembly

variable {c : Config} {b b' : Decl.Bundle} {a a' : Assembly}

theorem settled_of_build (h : build b c = .ok a) : a.database.Settled b c where
  named := (Reachable.build h).sound.named
  nodup := (Reachable.build h).sound.nodup_arena .field
  links := enumLinks_of_build h
  nested := by
    intro i d hd
    have hgrows : Decl.Outline.Grows b.schemas ((b.outline c).map (·.withImpliedTags)) :=
      (Decl.Bundle.grows_outline (List.append_nil _).symm).trans
        (Decl.Outline.grows_map _ fun s _ => s.grows_withImpliedTags)
    obtain ⟨d', hd', hgrown⟩ := hgrows i d hd
    obtain ⟨s, hs, hm⟩ := getElem?_of_paired (mirrors_of_build h).mirrors.schemas.flip hd'
    exact ⟨s, hs, hm.info.trans hgrown.info, fun sort => hm.names sort ▸ hgrown.names sort⟩

theorem enumLinks_subset (h : build b c = .ok a) (h' : build b' c = .ok a')
    (hb : b.Reorders b') : a.database.enumLinks ⊆ a'.database.enumLinks := by
  have hm := (mirrors_of_build h).mirrors
  have hm' := (mirrors_of_build h').mirrors
  have ho := (hb.outline c).withImpliedTags
  intro l hl
  obtain ⟨s, hs, y, hy, i, hi, hp, hschema, hname⟩ := Database.mem_namedLinks.mp hl
  obtain ⟨e, he, rfl⟩ := List.mem_map.mp hy
  obtain ⟨u, hu, t, ht, f, hf, rfl, hpath⟩ := Database.mem_fieldPaths.mp hp
  obtain ⟨s', hs', htwins⟩ := hm.exists_twin hm' ho hs
  obtain ⟨e', he', hdeclared⟩ := htwins.exists_enum he
  obtain ⟨u', hu', howner⟩ := hm.exists_twin hm' ho hu
  obtain ⟨t', ht', htable, f', hf', hinfo⟩ := howner.exists_field ht hf
  have henum : e'.name = e.name := congrArg (·.name) hdeclared
  have hi' : f'.id ∈ e'.fields :=
    (settled_of_build h).mem_fields_of_named (settled_of_build h') hb.schemas.symm hs he hs' he'
      hu ht hf hu' ht' hf' htwins.name henum howner.name htable hinfo hi
  refine Database.mem_namedLinks.mpr ⟨s', hs', _, List.mem_map.mpr ⟨e', he', rfl⟩, f'.id, hi',
    Database.mem_fieldPaths.mpr ⟨u', hu', t', ht', f', hf', rfl, ?_⟩,
    hschema.trans htwins.name.symm, hname.trans henum.symm⟩
  rw [hpath, howner.name, htable, hinfo]

end Assembly

end Catalog
