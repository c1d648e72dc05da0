import Catalog.Proofs.Mirror.Carry
import Catalog.Proofs.Mirror.Group

/-!
Inserting a record into a schema carries out its placement there.
-/
namespace Catalog

variable {c : Config} {project : DatabaseInfo} {x : Decl.Stage} {a : Assembly} {name : String}
  {id : Id .schema} {tagged : Bool}

/-- Records can be inserted into the schema that a name refers to. -/
def Into (name : String) (id : Id .schema) (tagged : Bool) (x : Decl.Stage) (a : Assembly) : Prop :=
  a.database.Denotes name id ∧ x.tagged = tagged

theorem Assembly.Mirrors.lt_next (h : a.Mirrors c project x) {k : Kind} {n : Nat}
    (hn : n ∈ a.database.numbers k) : n < a.ids.next k := by
  have hmem := (h.numbers k).mem_iff.mp hn
  rw [List.mem_range'_1] at hmem
  rw [h.next_eq k]
  exact hmem.2

theorem Database.mem_numbers_table {db : Database} {s : Schema} {t : Table} (hs : s ∈ db.schemas)
    (ht : t ∈ s.tables) : t.id.toNat ∈ db.numbers .table := by
  exact mem_arena.mp (List.mem_map.mpr ⟨t, List.mem_flatMap.mpr ⟨s, hs, ht⟩, rfl⟩)

/-- Groups consist of tables of the database. -/
theorem Assembly.Mirrors.exists_table_of_group (h : a.Mirrors c project x) {g : TableGroup}
    (hg : a.database.HasGroup g) {i : Id .table} (hi : i ∈ g.tables) :
    ∃ s ∈ a.database.schemas, ∃ t ∈ s.tables, t.id = i := by
  obtain ⟨s, hs, hgs⟩ := hg
  obtain ⟨d, -, hm⟩ := h.exists_decl hs
  obtain ⟨g', -, hmg⟩ := exists_right_of_paired hm.tableGroups hgs
  obtain ⟨p, -, hp⟩ := exists_right_of_paired hmg.tables hi
  obtain ⟨s', hs', t, ht, hid, -⟩ := Database.mem_tablePaths.mp hp
  exact ⟨s', hs', t, ht, hid⟩

theorem Database.Denotes.exists_id {db : Database} (h : db.Denotes name id) :
    ∃ s ∈ db.schemas, s.id = id := by
  obtain ⟨s, hs, hid, -⟩ := h
  exact ⟨s, hs, hid⟩

/-- A draft that ends with the check of its name draws nothing more for it. -/
theorem draws_labelled {δ ε : Type} {draft : Drafting δ} (rec : Decl.Item) {sort : ChildSort}
    {own : String} {R : δ → (Kind → List Nat) → Prop} {S : ε → (Kind → List Nat) → Prop}
    {f : δ → ε} {nameOf : δ → String} {tokenOf : δ → Span} (h : a.Mirrors c project x)
    (hid : a.database.Denotes name id) (hlabel : rec.label? = some (sort, own))
    (hdraft : Draws draft rec.extent R fun r =>
      ∀ d, x.outline.schema? name = some d → rec.Refused c x.outline d r)
    (hname : ∀ v ns, R v ns → nameOf v = own ∧ tokenOf v = rec.token)
    (hS : ∀ v ns, R v ns → (∀ d, x.outline.schema? name = some d → own ∉ d.names sort) →
      S (f v) ns) :
    Draws (do
        let v ← draft
        Assembly.checkName a.database id sort (nameOf v) (tokenOf v)
        pure (f v))
      rec.extent S fun r => ∀ d, x.outline.schema? name = some d → rec.Refused c x.outline d r := by
  apply hdraft.checked _ hS
  intro v ns hv
  obtain ⟨hown, htoken⟩ := hname v ns hv
  rw [hown, htoken]
  apply (draws_checkName h hid sort own rec.token).imp (fun _ _ hr => hr)
  intro r hr d hd
  obtain ⟨hold, hkind, hspan⟩ := hr d hd
  exact .taken hlabel hold hkind hspan

theorem carries_pushTable (d : Decl.Table) :
    Carries c project (Into name id false) (Assembly.pushTable id d) [.place name (.table d)]
      fun _ => Into name id false := by
  rintro x a ⟨h, hgrouped⟩ ⟨hid, htagged⟩
  apply meets_insert_of_draws (r := .table d) (R := fun t ns => (t.declared = d.bare ∧
    (∀ k, t.numbers k = ns k) ∧ t.Unlinked ∧ (d.fields.map (·.name)).Nodup) ∧
    ∀ dS, x.outline.schema? name = some dS → d.name ∉ dS.names .table) h hid
  · apply draws_labelled (.table d) h hid rfl
    · apply (draws_table d).imp (fun _ _ ht => ht)
      rintro r ⟨pre, f, post, hsplit, hf, hkind, hspan⟩ dS -
      exact .field hsplit hf hkind hspan
    · rintro t ns ⟨hdecl, -⟩
      exact ⟨congrArg (·.name) hdecl, congrArg (·.token) hdecl⟩
    · intro t ns ht hnew
      exact ⟨ht, hnew⟩
  · rintro t ids hdrew ⟨⟨hdecl, hnumbers, hunlinked, hnodup⟩, hnew⟩
    have hfits : ∀ dS, x.outline.schema? name = some dS →
        (Decl.Item.table d).Fits c x.outline dS := by
      intro dS hdS
      refine ⟨trivial, hnodup, ?_, by simp, by simp⟩
      rintro sort own ⟨⟩
      exact hnew dS hdS
    have hplace := h.place hid (e := .table t) (.table hdecl hunlinked.tags) hfits hdrew hnumbers
      fun _ _ => htagged
    refine ⟨⟨trivial, trivial⟩, ⟨hplace, ?_⟩, hid.updateSchema (.table t), htagged⟩
    apply hgrouped.insert (e := .table t) hid.exists_id (by simp)
    rintro t' ⟨⟩
    refine ⟨hunlinked.group, ?_⟩
    -- The number of the new table is beyond those of all tables that groups can have.
    intro g hg hmem
    obtain ⟨s, hs, t', ht', heq⟩ := h.exists_table_of_group hg hmem
    have hlt := h.lt_next (Database.mem_numbers_table hs ht')
    have hnew' : t.id.toNat ∈ t.numbers .table := by simp [Table.numbers, Id.number]
    rw [hnumbers .table, List.mem_range'_1] at hnew'
    rw [heq] at hlt
    omega

theorem carries_pushTag (d : Decl.Tag) :
    Carries c project (Into name id tagged) (Assembly.pushTag id d) [.place name (.tag d)]
      fun _ => Into name id tagged := by
  rintro x a ⟨h, hgrouped⟩ ⟨hid, htagged⟩
  apply meets_insert_of_draws (r := .tag d) (R := fun t ns => (t.declared = d.bare ∧
    ∀ k, t.id.number k = ns k) ∧
    ∀ dS, x.outline.schema? name = some dS → d.name ∉ dS.names .tag) h hid
  · apply draws_labelled (.tag d) h hid rfl (draws_issue .tag)
    · intro i ns _
      exact ⟨rfl, rfl⟩
    · intro i ns hns hnew
      exact ⟨⟨rfl, hns⟩, hnew⟩
  · rintro t ids hdrew ⟨⟨hdecl, hnumbers⟩, hnew⟩
    have hfits : ∀ dS, x.outline.schema? name = some dS →
        (Decl.Item.tag d).Fits c x.outline dS := by
      intro dS hdS
      refine ⟨trivial, trivial, ?_, by simp, by simp⟩
      rintro sort own ⟨⟩
      exact hnew dS hdS
    have hplace := h.place hid (e := .tag t) (.tag hdecl) hfits hdrew hnumbers (by simp)
    refine ⟨⟨trivial, trivial⟩, ⟨hplace, ?_⟩, hid.updateSchema (.tag t), htagged⟩
    exact hgrouped.insert (e := .tag t) hid.exists_id (by simp) (by simp)

/-! Enums, which may be linked to fields at once. -/

theorem Assembly.Follows.relink (h : a.Follows c project x) {f : Table → Table} {g : Enum → Enum}
    (hf : ∀ t, (f t).Agrees t ∧ (f t).group = t.group) (hg : ∀ e, (g e).Agrees e) :
    Assembly.Follows c project x ⟨a.database.relink f g, a.ids⟩ :=
  ⟨h.mirrors.relink (fun t => (hf t).1) hg, h.grouped.relink fun t => ⟨(hf t).1.id, (hf t).2⟩⟩

theorem Assembly.Follows.addEnum (h : a.Follows c project x) (hid : a.database.Denotes name id)
    {e : Enum} {d : Decl.Enum} {ids : Allocator} (hdecl : e.declared = d.bare)
    (hfits : ∀ dS, x.outline.schema? name = some dS → (Decl.Item.enum d).Fits c x.outline dS)
    (hdrew : a.ids.Drew ids (Decl.Item.enum d).extent)
    (hnumbers : ∀ k,
      e.numbers k = List.range' (a.ids.next k) ((Decl.Item.enum d).extent k)) :
    Assembly.Follows c project (x.step c (.place name (.enum d)))
      ⟨a.database.addEnum id e, ids⟩ ∧ (a.database.addEnum id e).Denotes name id := by
  have hplace := h.mirrors.place hid (e := .enum e) (.enum hdecl) hfits hdrew hnumbers (by simp)
  have hfollows : Assembly.Follows c project (x.step c (.place name (.enum d)))
      ⟨a.database.updateSchema id (·.insert (.enum e)), ids⟩ :=
    ⟨hplace, h.grouped.insert (e := .enum e) hid.exists_id (by simp) (by simp)⟩
  have hdenotes : (a.database.updateSchema id (·.insert (.enum e))).Denotes name id :=
    hid.updateSchema (.enum e)
  rcases a.database.addEnum_cases id e with ⟨-, heq⟩ | ⟨-, heq⟩
  · rw [heq]
    exact ⟨hfollows, hdenotes⟩
  · obtain ⟨f, g, hbind, hf, hg⟩ :=
      (a.database.updateSchema id (·.insert (.enum e))).bindEnum_eq_relink e.id
    rw [heq, hbind]
    exact ⟨hfollows.relink hf hg, hdenotes.relink⟩

theorem carries_pushEnum (d : Decl.Enum) :
    Carries c project (Into name id tagged) (Assembly.pushEnum id d) [.place name (.enum d)]
      fun _ => Into name id tagged := by
  rintro x a ⟨h, hgrouped⟩ ⟨hid, htagged⟩
  apply meets_insert_of_draws (r := .enum d) (R := fun e ns => (e.declared = d.bare ∧
    (∀ k, e.numbers k = ns k) ∧ e.fields = [] ∧ (d.values.map (·.name)).Nodup) ∧
    ∀ dS, x.outline.schema? name = some dS → d.name ∉ dS.names .enum) h hid
  · apply draws_labelled (.enum d) h hid rfl
    · apply (draws_enum d).imp (fun _ _ he => he)
      rintro r ⟨pre, v, post, hsplit, hv, hkind, hspan⟩ dS -
      exact .value hsplit hv hkind hspan
    · rintro e ns ⟨hdecl, -⟩
      exact ⟨congrArg (·.name) hdecl, congrArg (·.token) hdecl⟩
    · intro e ns he hnew
      exact ⟨he, hnew⟩
  · rintro e ids hdrew ⟨⟨hdecl, hnumbers, -, hnodup⟩, hnew⟩
    have hfits : ∀ dS, x.outline.schema? name = some dS →
        (Decl.Item.enum d).Fits c x.outline dS := by
      intro dS hdS
      refine ⟨trivial, hnodup, ?_, by simp, by simp⟩
      rintro sort own ⟨⟩
      exact hnew dS hdS
    obtain ⟨hfollows, hdenotes⟩ := Assembly.Follows.addEnum ⟨h, hgrouped⟩ hid hdecl hfits hdrew
      hnumbers
    exact ⟨⟨trivial, trivial⟩, hfollows, hdenotes, htagged⟩

/-! Refs. -/

theorem draws_of_error {α β : Type} {f : α → Drafting β} {r : Rejection} {need : Kind → Nat}
    {R : β → (Kind → List Nat) → Prop} {Q : Rejection → Prop} (hr : Q r) :
    Draws (Attempt.ofExcept (.error r) >>= f) need R Q :=
  draws_reject hr

theorem draws_of_ok {α β : Type} {f : α → Drafting β} {v : α} {need : Kind → Nat}
    {R : β → (Kind → List Nat) → Prop} {Q : Rejection → Prop} (hf : Draws (f v) need R Q) :
    Draws (Attempt.ofExcept (.ok v) >>= f) need R Q :=
  hf

theorem draws_checkRef (h : a.Mirrors c project x) (hid : a.database.Denotes name id) {r : Ref}
    {d : Decl.Ref} (hr : r.Mirrors a.database c x.outline d) :
    Draws (Assembly.checkRef a.database id r) (fun _ => 0)
      (fun _ ns => (∀ dS, x.outline.schema? name = some dS → ∀ d' ∈ dS.refs,
        ¬ x.outline.SameEnds c d d') ∧ ∀ k, ns k = [])
      (fun rej => ∀ dS, x.outline.schema? name = some dS → ∃ d' ∈ dS.refs,
        x.outline.Connects c d' ∧ x.outline.SameEnds c d d' ∧ rej.kind = .duplicateRef ∧
          rej.span = r.token) := by
  obtain ⟨s, dS, hs, -, -, hdS, hm⟩ := h.schema?_of_denotes hid
  have hmem : dS ∈ x.outline := List.mem_of_find?_eq_some hdS
  rw [hdS]
  apply (draws_checkRef_of_schema? hs r).imp
  · rintro - ns ⟨hne, hns⟩
    refine ⟨?_, hns⟩
    rintro _ ⟨⟩ d' hd' hsame
    obtain ⟨r', hr', hmr⟩ := exists_left_of_paired hm.refs hd'
    have hsame' := (h.connectsSame_iff hr hmr (h.sound.connects dS hmem d' hd')).mpr hsame
    rw [hne r' hr'] at hsame'
    cases hsame'
  · rintro rej ⟨⟨r', hr', hsame⟩, hkind, hspan⟩ _ ⟨⟩
    obtain ⟨d', hd', hmr⟩ := exists_right_of_paired hm.refs hr'
    have hconnects := h.sound.connects dS hmem d' hd'
    exact ⟨d', hd', hconnects, (h.connectsSame_iff hr hmr hconnects).mp hsame, hkind, hspan⟩

/-- A drafted endpoint keeps what has been resolved. -/
theorem Resolved.Mirrors.endpoint {db : Database} {o : Decl.Outline} {e : Resolved}
    {d : Decl.Endpoint} {v : Endpoint} (h : e.Mirrors db c o d) (hv : v.Of e) :
    v.Mirrors db c o d := by
  constructor
  · rw [hv.info, h.declared]
  · rw [hv.token, h.declared]
  · rw [hv.table]
    exact h.table
  · rw [hv.fields]
    exact h.fields

/-- The fields of a ref are linked to it, then it is inserted. -/
theorem Assembly.Follows.addRef (h : a.Follows c project x) (hid : a.database.Denotes name id)
    {r : Ref} {d : Decl.Ref} {ids : Allocator} (hr : r.Mirrors a.database c x.outline d)
    (hfits : ∀ dS, x.outline.schema? name = some dS → (Decl.Item.ref d).Fits c x.outline dS)
    (hdrew : a.ids.Drew ids (Decl.Item.ref d).extent)
    (hnumbers : ∀ k, r.numbers k = List.range' (a.ids.next k) ((Decl.Item.ref d).extent k)) :
    Assembly.Follows c project (x.step c (.place name (.ref d)))
      ⟨a.database.addRef id r, ids⟩ ∧ (a.database.addRef id r).Denotes name id := by
  have hagrees := (Entity.ref r).agrees_tie
  have hlinked : Assembly.Follows c project x
      ⟨a.database.relink (Entity.ref r).tie fun e => e, a.ids⟩ :=
    h.relink (fun t => ⟨hagrees t, rfl⟩) fun _ => ⟨rfl, fun _ => rfl⟩
  have hdenotes : (a.database.relink (Entity.ref r).tie fun e => e).Denotes name id := hid.relink
  have hr' := hr.mono (Database.keeps_relink (g := fun e => e) hagrees)
    (Decl.Outline.Grows.refl x.outline)
  have hplace := hlinked.mirrors.place hdenotes (e := .ref r) (.ref hr') hfits hdrew hnumbers
    (by simp)
  rw [a.database.addRef_eq id r]
  exact ⟨⟨hplace, hlinked.grouped.insert (e := .ref r) hdenotes.exists_id (by simp) (by simp)⟩,
    hdenotes.updateSchema (.ref r)⟩

theorem carries_pushRef (d : Decl.Ref) :
    Carries c project (Into name id tagged) (Assembly.pushRef id d) [.place name (.ref d)]
      fun _ => Into name id tagged := by
  rintro x a ⟨h, hgrouped⟩ ⟨hid, htagged⟩
  apply meets_insert_of_draws (r := .ref d) (R := fun r ns =>
    (r.Mirrors a.database c x.outline d ∧ x.outline.Connects c d ∧ ∀ k, r.numbers k = ns k) ∧
    ∀ dS, x.outline.schema? name = some dS → ∀ d' ∈ dS.refs, ¬ x.outline.SameEnds c d d') h hid
  · cases hres : a.database.resolveRef d with
    | error rej =>
      apply draws_of_error
      intro dS hdS
      exact .unlinked (h.resolveRef_error hres)
    | ok pair =>
      obtain ⟨first, second⟩ := pair
      obtain ⟨e₁, e₂, hends, hm₁, hm₂, hconnects⟩ := h.resolveRef_ok hres
      have hneed : ∀ k, (if k = Kind.ref then 1 else if k = .endpoint then 2 else 0) + 0
          = (Decl.Item.ref d).extent k := by
        intro k
        cases k <;> simp [Decl.Item.extent, Decl.Ref.extent, hends]
      apply draws_of_ok
      apply Draws.need_eq _ hneed
      apply Draws.bind (draws_ref d first second)
      rintro r ns ⟨⟨hinfo, htoken⟩, hfirst, hsecond, hnumbers⟩
      have hr : r.Mirrors a.database c x.outline d := by
        refine ⟨hinfo, htoken, ?_⟩
        rw [hends]
        exact .cons (hm₁.endpoint hfirst) (.cons (hm₂.endpoint hsecond) .nil)
      apply Draws.map ((draws_checkRef h hid hr).imp (fun _ _ hr => hr) _)
      · rintro - ns' ⟨hne, hns'⟩
        refine ⟨⟨hr, hconnects, ?_⟩, hne⟩
        intro k
        simp only [hnumbers, hns', List.append_nil]
      · intro rej hrej dS hdS
        obtain ⟨d', hd', hconnects', hsame, hkind, hspan⟩ := hrej dS hdS
        exact .ends hconnects hconnects' hd' hsame hkind (hspan.trans htoken)
  · rintro r ids hdrew ⟨⟨hr, hconnects, hnumbers⟩, hne⟩
    have hfits : ∀ dS, x.outline.schema? name = some dS →
        (Decl.Item.ref d).Fits c x.outline dS := by
      intro dS hdS
      refine ⟨hconnects, trivial, by simp [Decl.Item.label?], ?_, by simp⟩
      rintro _ ⟨⟩
      exact hne dS hdS
    obtain ⟨hfollows, hdenotes⟩ := Assembly.Follows.addRef ⟨h, hgrouped⟩ hid hr hfits hdrew
      hnumbers
    exact ⟨⟨hconnects, trivial⟩, hfollows, hdenotes, htagged⟩

/-! Table groups. -/

/-- A table is in a group exactly if some group of the outline has its path. -/
theorem Assembly.Follows.isSome_group_iff (h : a.Follows c project x) {t : Table} {p : TablePath}
    (ht : a.database.Holds t p) : t.group.isSome = true ↔
      ∃ d ∈ x.outline, ∃ g ∈ d.tableGroups, p ∈ x.outline.members c g := by
  obtain ⟨s, hs, hts, rfl⟩ := ht
  have hpath : (t.id, TablePath.mk s.name t.name) ∈ a.database.tablePaths :=
    Database.mem_tablePaths.mpr ⟨s, hs, t, hts, rfl, rfl⟩
  rw [h.grouped s hs t hts]
  constructor
  · rintro ⟨s', hs', g, hg, hmem⟩
    obtain ⟨d, hd, hm⟩ := h.mirrors.exists_decl hs'
    obtain ⟨g', hg', hmg⟩ := exists_right_of_paired hm.tableGroups hg
    obtain ⟨p, hp, hpath'⟩ := exists_right_of_paired hmg.tables hmem
    rw [← (h.mirrors.tablePath_eq_iff hpath hpath').mp rfl] at hp
    exact ⟨d, hd, g', hg', hp⟩
  · rintro ⟨d, hd, g', hg', hp⟩
    obtain ⟨s', hs', hm⟩ := exists_left_of_paired h.mirrors.schemas hd
    obtain ⟨g, hg, hmg⟩ := exists_left_of_paired hm.tableGroups hg'
    obtain ⟨i, hi, hpath'⟩ := exists_left_of_paired hmg.tables hp
    rw [← (h.mirrors.tablePath_eq_iff hpath hpath').mpr rfl] at hi
    exact ⟨s', hs', g, hg, hi⟩

theorem firstGrouped?_eq_none_iff {ts : List Table} :
    Database.firstGrouped? ts = none ↔ ∀ t ∈ ts, ¬ t.group.isSome = true := by
  unfold Database.firstGrouped?
  rw [List.findSome?_eq_none_iff]
  apply forall₂_congr
  intro t _
  cases t.group <;> simp

theorem draws_checkUngrouped (h : a.Follows c project x) {ts : List Table} {ps : List TablePath}
    (hts : List.Forall₂ a.database.Holds ts ps) (token : Span) :
    Draws (Assembly.checkUngrouped a.database ts token) (fun _ => 0)
      (fun _ ns => (∀ p ∈ ps, ∀ d ∈ x.outline, ∀ g ∈ d.tableGroups,
        p ∉ x.outline.members c g) ∧ ∀ k, ns k = [])
      (fun r => ∃ p ∈ ps, ∃ d ∈ x.outline, ∃ g ∈ d.tableGroups, p ∈ x.outline.members c g ∧
        r.kind = .tableAlreadyGrouped ∧ r.span = token) := by
  apply (draws_checkUngrouped_of_grouped ts token).imp
  · rintro - ns ⟨hnone, hns⟩
    rw [firstGrouped?_eq_none_iff] at hnone
    refine ⟨?_, hns⟩
    intro p hp d hd g hg hmem
    obtain ⟨t, ht, hheld⟩ := exists_left_of_paired hts hp
    exact hnone t ht ((h.isSome_group_iff hheld).mpr ⟨d, hd, g, hg, hmem⟩)
  · rintro r ⟨hsome, hkind, hspan⟩
    rw [Ne, firstGrouped?_eq_none_iff] at hsome
    push Not at hsome
    obtain ⟨t, ht, hgrouped⟩ := hsome
    obtain ⟨p, hp, hheld⟩ := exists_right_of_paired hts ht
    obtain ⟨d, hd, g, hg, hmem⟩ := (h.isSome_group_iff hheld).mp hgrouped
    exact ⟨p, hp, d, hd, g, hg, hmem, hkind, hspan⟩

/-- The tables of a group record it, then it is inserted. -/
theorem Assembly.Follows.addTableGroup (h : a.Follows c project x)
    (hid : a.database.Denotes name id) {g : TableGroup} {d : Decl.TableGroup} {ids : Allocator}
    (hg : g.Mirrors a.database c x.outline d)
    (hfits : ∀ dS, x.outline.schema? name = some dS →
      (Decl.Item.tableGroup d).Fits c x.outline dS)
    (hdrew : a.ids.Drew ids (Decl.Item.tableGroup d).extent)
    (hnumbers : ∀ k,
      g.id.number k = List.range' (a.ids.next k) ((Decl.Item.tableGroup d).extent k)) :
    Assembly.Follows c project (x.step c (.place name (.tableGroup d)))
      ⟨a.database.addTableGroup id g, ids⟩ ∧ (a.database.addTableGroup id g).Denotes name id := by
  have hagrees := (Entity.tableGroup g).agrees_tie
  have hmirrors := h.mirrors.relink hagrees fun e => (⟨rfl, fun _ => rfl⟩ : e.Agrees e)
  have hdenotes : (a.database.relink (Entity.tableGroup g).tie fun e => e).Denotes name id :=
    hid.relink
  have hg' := hg.mono (Database.keeps_relink (g := fun e => e) hagrees)
    (Decl.Outline.Grows.refl x.outline)
  have hplace := hmirrors.place hdenotes (e := .tableGroup g) (.tableGroup hg') hfits hdrew
    hnumbers (by simp)
  have hgrouped : (a.database.addTableGroup id g).Grouped := h.grouped.insert_group hid.exists_id
  rw [a.database.addTableGroup_eq id g] at hgrouped ⊢
  exact ⟨⟨hplace, hgrouped⟩, hdenotes.updateSchema (.tableGroup g)⟩

theorem carries_pushTableGroup (d : Decl.TableGroup) :
    Carries c project (Into name id tagged) (Assembly.pushTableGroup id d)
      [.place name (.tableGroup d)] fun _ => Into name id tagged := by
  rintro x a h ⟨hid, htagged⟩
  apply meets_insert_of_draws (r := .tableGroup d) (R := fun g ns =>
    (g.Mirrors a.database c x.outline d ∧ ∀ k, g.id.number k = ns k) ∧
    (∀ dS, x.outline.schema? name = some dS → d.name ∉ dS.names .tableGroup) ∧
    ∀ p ∈ x.outline.members c d, ∀ dS ∈ x.outline, ∀ g' ∈ dS.tableGroups,
      p ∉ x.outline.members c g') h.mirrors hid
  · cases hres : a.database.resolveMembers d.token [] d.tables with
    | error rej =>
      apply draws_of_error
      intro dS hdS
      obtain ⟨m, hm, hmiss, hspan⟩ := h.mirrors.resolveMembers_error hres
      exact .unlinked (.member hm hmiss hspan)
    | ok ts =>
      obtain ⟨hgathers, hts⟩ := h.mirrors.resolveMembers_ok [] .nil hres
      rw [List.nil_append] at hts
      have hneed : ∀ k, (if k = Kind.tableGroup then 1 else 0) + (0 + 0)
          = (Decl.Item.tableGroup d).extent k := fun k => rfl
      apply draws_of_ok
      apply Draws.need_eq _ hneed
      apply Draws.bind (draws_issue .tableGroup)
      intro i ns hns
      apply Draws.bind ((draws_checkName h.mirrors hid .tableGroup d.name d.token).imp
        (fun _ _ hr => hr) _)
      · rintro - ns' ⟨hnew, hns'⟩
        apply Draws.map ((draws_checkUngrouped h hts d.token).imp (fun _ _ hr => hr) _)
        · rintro - ns'' ⟨hfree, hns''⟩
          refine ⟨⟨⟨rfl, rfl, hgathers, ?_⟩, ?_⟩, hnew, hfree⟩
          · rw [List.forall₂_map_left_iff]
            apply hts.imp
            rintro t p ⟨s, hs, ht, rfl⟩
            exact Database.mem_tablePaths.mpr ⟨s, hs, t, ht, rfl, rfl⟩
          · intro k
            simp only [hns, hns', hns'', List.append_nil]
        · rintro r ⟨p, hp, dS', hdS', g', hg', hmem, hkind, hspan⟩ dS -
          exact .grouped hp hdS' hg' hmem hkind hspan
      · intro r hr dS hdS
        obtain ⟨hold, hkind, hspan⟩ := hr dS hdS
        exact .taken rfl hold hkind hspan
  · rintro g ids hdrew ⟨⟨hg, hnumbers⟩, hnew, hfree⟩
    have hfits : ∀ dS, x.outline.schema? name = some dS →
        (Decl.Item.tableGroup d).Fits c x.outline dS := by
      intro dS hdS
      refine ⟨hg.gathers, trivial, ?_, by simp, ?_⟩
      · rintro sort own ⟨⟩
        exact hnew dS hdS
      · rintro _ ⟨⟩
        exact hfree
    obtain ⟨hfollows, hdenotes⟩ := h.addTableGroup hid hg hfits hdrew hnumbers
    exact ⟨⟨hg.gathers, trivial⟩, hfollows, hdenotes, htagged⟩

end Catalog
