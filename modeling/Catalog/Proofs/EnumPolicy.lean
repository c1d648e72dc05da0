import Catalog.Proofs.EnumLinks
import Catalog.Proofs.EnumPolicy.Blindness
import Catalog.Proofs.EnumPolicy.Outputs
import Catalog.Proofs.Flattening.Filed

/-!
The policy on enum links decides about enum links and nothing else. What is linked where enums are
bound as they are inserted is linked as well where all are bound in the end.
-/
namespace Catalog

/-- The links between enums and fields in one flat model are in another as well, in the same
order. -/
structure Flat.Model.EnumLinksWithin (m m' : Model) : Prop where
  enums : ∀ {i e}, m.enums.get? i = some e →
    ∃ e', m'.enums.get? i = some e' ∧ e.fieldIds.Sublist e'.fieldIds
  fields : ∀ {i f}, m.fields.get? i = some f →
    ∃ f', m'.fields.get? i = some f' ∧ ∀ e ∈ f.enumId, e ∈ f'.enumId

/-- What is kept of one list is kept of another one that is paired with it, and so in order. -/
theorem sublist_of_paired {α β γ : Type} {R : α → β → Prop} {f : α → γ} {g : β → γ}
    {t : α → Bool} {u : β → Bool} {l : List α} {l' : List β} (h : List.Forall₂ R l l')
    (hR : ∀ a ∈ l, ∀ b ∈ l', R a b → f a = g b ∧ (t a = true → u b = true)) :
    ((l.filter t).map f).Sublist ((l'.filter u).map g) := by
  induction h with
  | nil => exact .slnil
  | @cons a b l l' hab _ ih =>
    obtain ⟨heq, hkept⟩ := hR a List.mem_cons_self b List.mem_cons_self hab
    have hrest := ih fun a ha b hb => hR a (.tail _ ha) b (.tail _ hb)
    by_cases ha : t a = true
    · rw [List.filter_cons_of_pos ha, List.filter_cons_of_pos (hkept ha), List.map_cons,
        List.map_cons, heq]
      exact hrest.cons_cons _
    · rw [List.filter_cons_of_neg ha]
      exact hrest.trans ((List.sublist_cons_self b l').filter u |>.map g)

namespace Database

variable {db db' : Database} {p q : Place} {t : Table} {s : Schema} {e : Enum}

/-- Databases that differ in enum links at most have the same tables and enums at the same places,
up to these links. -/
theorem TableAt.transfer (hu : db.unbound = db'.unbound) (h : db.TableAt p t) :
    ∃ t', db'.TableAt p t' ∧ t.unbound = t'.unbound := by
  obtain ⟨s, hs, ht⟩ := h
  obtain ⟨s', hs', hss'⟩ := getElem?_of_paired (paired_eq_iff.mpr (congrArg (·.schemas) hu)) hs
  obtain ⟨t', ht', htt'⟩ := getElem?_of_paired (paired_eq_iff.mpr (congrArg (·.tables) hss')) ht
  exact ⟨t', ⟨s', hs', ht'⟩, htt'⟩

theorem EnumAt.transfer (hu : db.unbound = db'.unbound) (h : db.EnumAt q s e) :
    ∃ s' e', db'.EnumAt q s' e' ∧ s.unbound = s'.unbound ∧ e.unbound = e'.unbound := by
  obtain ⟨hs, he⟩ := h
  obtain ⟨s', hs', hss'⟩ := getElem?_of_paired (paired_eq_iff.mpr (congrArg (·.schemas) hu)) hs
  obtain ⟨e', he', hee'⟩ := getElem?_of_paired (paired_eq_iff.mpr (congrArg (·.enums) hss')) he
  exact ⟨s', e', ⟨hs', he'⟩, hss', hee'⟩

theorem TableAt.mem (h : db.TableAt p t) : t ∈ db.tables := by
  obtain ⟨s, hs, ht⟩ := h
  exact List.mem_flatMap.mpr ⟨s, List.mem_of_getElem? hs, List.mem_of_getElem? ht⟩

section Policies

variable {b : Decl.Bundle} {c : Config} (hu : db.unbound = db'.unbound)
  (hn : ∀ k, (db.arena k).Nodup) (hn' : ∀ k, (db'.arena k).Nodup)
  (h : db.LinksEnums b (c.withEnumBinding .onInsert))
  (h' : db'.LinksEnums b (c.withEnumBinding .afterConstruction))

include hu hn' h h'

/-- Fields are linked by their type, and on insertion only by that. -/
theorem enumId_of_unbound {f f' : Field} (hf : f ∈ db.fields) (hf' : f' ∈ db'.fields)
    (hid : f.id = f'.id) {i : Id .enum} (hi : f.enumId = some i) : f'.enumId = some i := by
  obtain ⟨p, t, ht, hft⟩ := exists_tableAt_of_mem hf
  obtain ⟨q, s, e, he, rfl⟩ := h.present f hf i hi
  have htyped := ((h.onInsert rfl ht hft he).mp hi).1
  obtain ⟨t', ht', htt'⟩ := ht.transfer hu
  obtain ⟨s', e', he', hss', hee'⟩ := he.transfer hu
  obtain ⟨j, hj⟩ := List.mem_iff_getElem?.mp hft
  obtain ⟨g, hg, hfg⟩ := getElem?_of_paired (paired_eq_iff.mpr (congrArg (·.fields) htt')) hj
  have hgt := List.mem_of_getElem? hg
  -- The field in the place of `f` has its identifier, as `f'` does.
  have hgid : g.id = f'.id := (congrArg (·.id) hfg).symm.trans hid
  obtain rfl : g = f' :=
    List.inj_on_of_nodup_map (hn' .field) (List.mem_flatMap.mpr ⟨t', ht'.mem, hgt⟩) hf' hgid
  have hinfo : f.toFieldInfo = g.toFieldInfo := congrArg (·.toFieldInfo) hfg
  have hschema : s.name = s'.name := congrArg (·.name) hss'
  have hname : e.name = e'.name := congrArg (·.name) hee'
  have heid : e.id = e'.id := congrArg (·.id) hee'
  rw [hinfo, hschema, hname] at htyped
  rw [heid]
  exact (h'.afterConstruction rfl ht' hgt he').mpr htyped

theorem fields_sublist_of_unbound {e e' : Enum} (he : e ∈ db.enums) (he' : e' ∈ db'.enums)
    (hid : e.id = e'.id) : e.fields.Sublist e'.fields := by
  have hpaired : List.Forall₂ (fun f f' => f.unbound = f'.unbound) db.fields db'.fields := by
    rw [paired_eq_iff, ← fields_unbound, ← fields_unbound, hu]
  rw [h.fields e he, h'.fields e' he', hid]
  apply sublist_of_paired hpaired
  intro f hf f' hf' hff'
  have hfid : f.id = f'.id := congrArg (·.id) hff'
  refine ⟨hfid, fun hi => ?_⟩
  exact decide_eq_true (enumId_of_unbound hu hn' h h' hf hf' hfid (of_decide_eq_true hi))

include hn

theorem enumLinksWithin_normalize : db.normalize.EnumLinksWithin db'.normalize := by
  have hm : db.normalize.unbound = db'.normalize.unbound := by
    rw [← normalize_unbound, ← normalize_unbound, hu]
  constructor
  · intro i r hr
    obtain ⟨r', hr', -⟩ := Bucket.get?_of_map_eq (congrArg (·.enums) hm) hr
    obtain ⟨s, hs, e, he, rfl, rfl⟩ := (Bucket.get?_children (hn .enum)).mp hr
    obtain ⟨s', hs', e', he', hid, rfl⟩ := (Bucket.get?_children (hn' .enum)).mp hr'
    exact ⟨_, hr', fields_sublist_of_unbound hu hn' h h' (List.mem_flatMap.mpr ⟨s, hs, he⟩)
      (List.mem_flatMap.mpr ⟨s', hs', he'⟩) hid⟩
  · intro i r hr
    obtain ⟨r', hr', -⟩ := Bucket.get?_of_map_eq (congrArg (·.fields) hm) hr
    obtain ⟨t, ht, f, hf, rfl, rfl⟩ := (Bucket.get?_children (hn .field)).mp hr
    obtain ⟨t', ht', f', hf', hid, rfl⟩ := (Bucket.get?_children (hn' .field)).mp hr'
    exact ⟨_, hr', fun _ hi => enumId_of_unbound hu hn' h h' (List.mem_flatMap.mpr ⟨t, ht, hf⟩)
      (List.mem_flatMap.mpr ⟨t', ht', hf'⟩) hid hi⟩

end Policies

/-- Whether a bundle is accepted, why it is not, and all of the outcome but enum links is the same
under all policies. -/
theorem alike_but_for_links (b : Decl.Bundle) (c : Config) (p q : EnumBinding) :
    (∃ r, build b (c.withEnumBinding p) = .error r ∧ build b (c.withEnumBinding q) = .error r) ∨
    ∃ db db', build b (c.withEnumBinding p) = .ok db ∧ build b (c.withEnumBinding q) = .ok db' ∧
      db.toExport = db'.toExport ∧ db.normalize.unbound = db'.normalize.unbound ∧
      (p = .onInsert → q = .afterConstruction → db.normalize.EnumLinksWithin db'.normalize) := by
  rcases Assembly.build_withEnumBinding b c p q with ⟨r, hp, hq⟩ | ⟨a, a', ha, ha', hu⟩
  · refine .inl ⟨r, ?_, ?_⟩
    · rw [build, hp, Except.map]
    · rw [build, hq, Except.map]
  · have hdb : a.database.unbound = a'.database.unbound := congrArg (·.database) hu
    refine .inr ⟨a.database, a'.database, build_eq_ok_iff.mpr ⟨a, ha, rfl⟩,
      build_eq_ok_iff.mpr ⟨a', ha', rfl⟩, ?_, ?_, ?_⟩
    · rw [← toExport_unbound, hdb, toExport_unbound]
    · rw [← normalize_unbound, hdb, normalize_unbound]
    · rintro rfl rfl
      exact enumLinksWithin_normalize hdb (Assembly.links_of_build ha).1.nodup_arena
        (Assembly.links_of_build ha').1.nodup_arena (Assembly.enumLinks_of_build ha)
        (Assembly.enumLinks_of_build ha')

/-- Parcels under both policies: a field is linked where enums wait for it, and not before. -/
theorem alike_but_for_links_parcels : ∃ db db',
    build .parcels (Config.withEnumBinding {} .onInsert) = .ok db ∧
    build .parcels (Config.withEnumBinding {} .afterConstruction) = .ok db' ∧
    db.normalize.EnumLinksWithin db'.normalize ∧
    db.fields.map (·.enumId.isSome) = [false, true] ∧
    db'.fields.map (·.enumId.isSome) = [true, true] := by
  have hinsert : (build .parcels (Config.withEnumBinding {} .onInsert)).toOption.any
      (fun db => db.fields.map (·.enumId.isSome) = [false, true]) = true := by
    decide +kernel
  have hafter : (build .parcels (Config.withEnumBinding {} .afterConstruction)).toOption.any
      (fun db => db.fields.map (·.enumId.isSome) = [true, true]) = true := by
    decide +kernel
  obtain ⟨db, hdb, hlinked⟩ := exists_build_of_any hinsert
  obtain ⟨db', hdb', hlinked'⟩ := exists_build_of_any hafter
  rcases alike_but_for_links .parcels {} .onInsert .afterConstruction with
    ⟨r, hr, -⟩ | ⟨d, d', hd, hd', -, -, hwithin⟩
  · rw [hdb] at hr
    cases hr
  · obtain rfl := Except.ok.inj (hdb.symm.trans hd)
    obtain rfl := Except.ok.inj (hdb'.symm.trans hd')
    exact ⟨db, db', hdb, hdb', hwithin rfl rfl, of_decide_eq_true hlinked,
      of_decide_eq_true hlinked'⟩

end Database

end Catalog
