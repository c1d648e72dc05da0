import Catalog.Assembly.TableGroup
import Catalog.Proofs.Mirror.Place
import Catalog.Proofs.Outline.Refusal
import Mathlib.Data.List.Induction

/-!
Resolving names in a database finds what the outline says, or fails for the reason that the outline
gives.
-/
namespace Catalog

variable {c : Config} {project : DatabaseInfo} {x : Decl.Stage} {a : Assembly}
  {schemaName : Option String} {tableName : String}

/-- A name is that of a table, which is the one that the outline finds. -/
structure Assembly.Finds (c : Config) (x : Decl.Stage) (a : Assembly) (schemaName : Option String)
    (tableName : String) (s : Schema) (t : Table) : Prop where
  schema : s ∈ a.database.schemas
  table : t ∈ s.tables
  path : x.outline.tablePath? c schemaName tableName = some ⟨s.name, t.name⟩
  found : ∃ d e, x.outline.locate? c schemaName tableName = some (d, e) ∧
    e.fields.map (·.name) = t.fields.map (·.name)

namespace Assembly.Finds

variable {s : Schema} {t : Table}

theorem mem_tablePaths (h : a.Finds c x schemaName tableName s t) :
    (t.id, ⟨s.name, t.name⟩) ∈ a.database.tablePaths :=
  Database.mem_tablePaths.mpr ⟨s, h.schema, t, h.table, rfl, rfl⟩

theorem fieldPath? {e : EndpointInfo} (h : a.Finds c x e.schemaName e.tableName s t)
    {name : String} (hname : name ∈ t.fields.map (·.name)) :
    x.outline.fieldPath? c e name = some ⟨⟨s.name, t.name⟩, name⟩ := by
  obtain ⟨d, e', hl, hfields⟩ := h.found
  have hpath := h.path
  rw [Decl.Outline.tablePath?, hl, Option.map_some, Option.some.injEq] at hpath
  injection hpath with hd ht
  rw [Decl.Outline.fieldPath?, hl, Option.bind_some, hfields, if_pos hname, hd, ht]

end Assembly.Finds

/-! What it takes to resolve names. -/

theorem TableInfo.isNamed_iff (t : TableInfo) (name : String) :
    t.isNamed name = true ↔ t.name = name ∨ t.aliasName = some name := by
  rw [isNamed, Catalog.isNamed, Bool.or_eq_true, decide_eq_true_iff, decide_eq_true_iff]

/-- A table is found under its own name unless an earlier one has that name as an alias. -/
theorem Schema.findTable?_self_iff {s : Schema} {pre post : List Table} {t : Table}
    (hsplit : s.tables = pre ++ t :: post) (hnodup : (s.tables.map (·.name)).Nodup) :
    s.findTable? t.name = some t ↔ ∀ u ∈ pre, u.aliasName ≠ some t.name := by
  have hself : t.isNamed t.name = true := (t.isNamed_iff _).mpr (.inl rfl)
  have hfind : s.findTable? t.name = (pre.find? (·.isNamed t.name)).or (some t) := by
    rw [findTable?, hsplit, List.find?_append, List.find?_cons, hself]
  have hnames : ∀ u ∈ pre, u.name ≠ t.name := by
    intro u hu hname
    rw [hsplit, List.map_append, List.nodup_append] at hnodup
    exact hnodup.2.2 u.name (List.mem_map.mpr ⟨u, hu, rfl⟩) t.name (by simp) hname
  rw [hfind]
  cases hpre : pre.find? (·.isNamed t.name) with
  | none =>
    apply iff_of_true rfl
    intro u hu halias
    exact List.find?_eq_none.mp hpre u hu ((u.isNamed_iff _).mpr (.inr halias))
  | some u =>
    have hu := List.mem_of_find?_eq_some hpre
    have hn := List.find?_some (p := fun u : Table => u.isNamed t.name) hpre
    apply iff_of_false
    · rintro ⟨⟩
      exact hnames t hu rfl
    · intro hall
      exact ((u.isNamed_iff _).mp hn).elim (hnames u hu) (hall u hu)

namespace Database

variable {db : Database} {token : Span}

theorem locate_of_resolveTable {s : Schema} {t : Table}
    (h : db.resolveTable schemaName tableName token = .ok (s, t)) :
    db.locate schemaName tableName = .ok (some (s, t)) := by
  unfold resolveTable at h
  split at h
  · cases h
  · rename_i found hfound
    cases h
    exact hfound
  · cases h

theorem resolveEndpoint_eq_ok {d : Decl.Endpoint} {e : Resolved}
    (h : db.resolveEndpoint token d = .ok e) : ∃ s t ids,
      db.resolveTable d.schemaName d.tableName (d.token.orElse token) = .ok (s, t) ∧
      resolveFields s t (d.token.orElse token) [] d.fieldNames = .ok ids ∧ e = ⟨d, t.id, ids⟩ := by
  unfold resolveEndpoint at h
  cases htable : db.resolveTable d.schemaName d.tableName (d.token.orElse token) with
  | error r =>
    simp only [htable, bind, Except.bind] at h
    cases h
  | ok found =>
    obtain ⟨s, t⟩ := found
    cases hfields : resolveFields s t (d.token.orElse token) [] d.fieldNames with
    | error r =>
      simp only [htable, bind, Except.bind, hfields] at h
      cases h
    | ok ids =>
      simp only [htable, bind, Except.bind, hfields] at h
      cases h
      exact ⟨s, t, ids, rfl, hfields, rfl⟩

theorem resolveRef_eq_ok {d : Decl.Ref} {first second : Resolved}
    (h : db.resolveRef d = .ok (first, second)) : ∃ e₁ e₂, d.endpoints = [e₁, e₂] ∧
      db.resolveEndpoint d.token e₁ = .ok first ∧ db.resolveEndpoint d.token e₂ = .ok second ∧
      first.fields.length = second.fields.length ∧
      ¬ sameFields first.fields second.fields = true := by
  unfold resolveRef at h
  split at h
  · rename_i e₁ e₂ hends
    cases h₁ : db.resolveEndpoint d.token e₁ with
    | error r => simp [h₁, bind, Except.bind] at h
    | ok first' =>
      cases h₂ : db.resolveEndpoint d.token e₂ with
      | error r => simp [h₁, h₂, bind, Except.bind] at h
      | ok second' =>
        simp only [h₁, h₂, bind, Except.bind] at h
        split at h
        · cases h
        · rename_i hlen
          split at h
          · cases h
          · rename_i hsame
            cases h
            exact ⟨e₁, e₂, hends, h₁, h₂, not_not.mp hlen, hsame⟩
  · cases h

theorem resolveMembers_cons {m : Decl.Member} {ms : List Decl.Member} {found ts : List Table}
    (h : db.resolveMembers token found (m :: ms) = .ok ts) : ∃ s t,
      db.resolveTable m.schemaName m.name (m.token.orElse token) = .ok (s, t) ∧
      db.resolveMembers token (if found.any (·.id = t.id) then found else found ++ [t]) ms
        = .ok ts := by
  unfold resolveMembers at h
  cases htable : db.resolveTable m.schemaName m.name (m.token.orElse token) with
  | error r =>
    simp only [htable, bind, Except.bind] at h
    cases h
  | ok pair =>
    obtain ⟨s, t⟩ := pair
    simp only [htable, bind, Except.bind] at h
    exact ⟨s, t, rfl, h⟩

end Database

namespace Assembly.Mirrors

/-- Looking up a table has the three outcomes that the outline has. -/
theorem locate_cases (h : a.Mirrors c project x) (schemaName : Option String)
    (tableName : String) :
    (a.database.locate schemaName tableName
        = .error { cause := .schemaNotFound (schemaName.getD c.defaultSchemaName) } ∧
      x.outline.Misses c schemaName tableName .schemaNotFound) ∨
    (a.database.locate schemaName tableName = .ok none ∧
      x.outline.Misses c schemaName tableName .tableNotFound) ∨
    ∃ s t, a.database.locate schemaName tableName = .ok (some (s, t)) ∧
      a.Finds c x schemaName tableName s t := by
  unfold Database.locate
  rw [h.config]
  rcases find?_of_paired h.schemas
      (p := fun s => s.isNamed (schemaName.getD c.defaultSchemaName))
      (q := fun d => d.isNamed (schemaName.getD c.defaultSchemaName))
      fun _ _ hm => hm.isNamed _ with ⟨hs, hd⟩ | ⟨s, d, hs, hd, hm⟩
  · left
    simp only [Database.findSchema?, hs]
    exact ⟨trivial, .schema hd⟩
  · right
    simp only [Database.findSchema?, hs]
    rcases find?_of_paired hm.tables (p := fun t => t.isNamed tableName)
        (q := fun e => e.isNamed tableName)
        (fun t e he => by rw [Table.info_of_declared he]) with ⟨ht, he⟩ | ⟨t, e, ht, he, hdecl⟩
    · left
      simp only [Schema.findTable?, ht]
      exact ⟨rfl, .table hd he⟩
    · right
      refine ⟨s, t, by simp only [Schema.findTable?, ht, Option.map_some], ?_⟩
      have hl := Decl.Outline.locate?_eq_some_iff.mpr ⟨hd, he⟩
      refine ⟨List.mem_of_find?_eq_some hs, List.mem_of_find?_eq_some ht, ?_, d, e, hl,
        (Table.fieldNames_of_declared hdecl).symm⟩
      rw [Decl.Outline.tablePath?, hl, Option.map_some, hm.info, Table.info_of_declared hdecl]

variable {token : Span} {r : Rejection} {s : Schema} {t : Table}

theorem resolveTable_ok (h : a.Mirrors c project x)
    (hr : a.database.resolveTable schemaName tableName token = .ok (s, t)) :
    a.Finds c x schemaName tableName s t := by
  have hfound := Database.locate_of_resolveTable hr
  rcases h.locate_cases schemaName tableName with ⟨hl, -⟩ | ⟨hl, -⟩ | ⟨s', t', hl, hfinds⟩
  · rw [hl] at hfound
    cases hfound
  · rw [hl] at hfound
    cases hfound
  · rw [hl] at hfound
    cases hfound
    exact hfinds

theorem resolveTable_error (h : a.Mirrors c project x)
    (hr : a.database.resolveTable schemaName tableName token = .error r) :
    x.outline.Misses c schemaName tableName r.kind ∧ r.span = token := by
  unfold Database.resolveTable at hr
  rcases h.locate_cases schemaName tableName with ⟨hl, hmiss⟩ | ⟨hl, hmiss⟩ | ⟨s', t', hl, -⟩
  · rw [hl] at hr
    cases hr
    exact ⟨hmiss, rfl⟩
  · rw [hl] at hr
    cases hr
    exact ⟨hmiss, rfl⟩
  · rw [hl] at hr
    cases hr

end Assembly.Mirrors

/-! The fields of an endpoint. -/

theorem findField?_some {t : Table} {name : String} {f : Field} (h : t.findField? name = some f) :
    f ∈ t.fields ∧ f.name = name :=
  ⟨List.mem_of_find?_eq_some h,
    of_decide_eq_true (List.find?_some (p := fun f : Field => decide (f.name = name)) h)⟩

theorem findField?_none {t : Table} {name : String} (h : t.findField? name = none) :
    name ∉ t.fields.map (·.name) := by
  intro hmem
  obtain ⟨f, hf, hname⟩ := List.mem_map.mp hmem
  exact List.find?_eq_none.mp h f hf (by simpa using hname)

theorem resolveFields_cons (s : Schema) (t : Table) (token : Span) (earlier : List (Id .field))
    (name : String) (names : List String) :
    resolveFields s t token earlier (name :: names) =
      match t.findField? name with
      | none =>
        .error { cause := .fieldNotFound (qualifiedName (some s.name) t.name) name, span := token }
      | some f =>
        if f.id ∈ earlier then
          .error { cause := .invalidEndpoints (.repeatedField name), span := token }
        else (resolveFields s t token (f.id :: earlier) names).map (f.id :: ·) :=
  rfl

/-- Fields that are found go by the names given. -/
theorem resolveFields_paired {s : Schema} {t : Table} {token : Span} {names : List String}
    {earlier ids : List (Id .field)} (hr : resolveFields s t token earlier names = .ok ids) :
    List.Forall₂ (fun id name => ∃ f ∈ t.fields, f.id = id ∧ f.name = name) ids names := by
  induction names generalizing earlier ids with
  | nil =>
    cases hr
    exact .nil
  | cons name names ih =>
    rw [resolveFields_cons] at hr
    split at hr
    · cases hr
    · rename_i f hf
      obtain ⟨hmem, hname⟩ := findField?_some hf
      split at hr
      · cases hr
      · cases hrest : resolveFields s t token (f.id :: earlier) names with
        | error r =>
          rw [hrest] at hr
          cases hr
        | ok rest =>
          rw [hrest] at hr
          cases hr
          exact .cons ⟨f, hmem, rfl, hname⟩ (ih hrest)

/-- None of the names of fields that are found is repeated. -/
theorem resolveFields_ok {s : Schema} {t : Table} {token : Span}
    (hnames : (t.fields.map (·.name)).Nodup) {names : List String}
    {earlier ids : List (Id .field)} (hr : resolveFields s t token earlier names = .ok ids) :
    names.Nodup ∧ ∀ f ∈ t.fields, f.name ∈ names → f.id ∉ earlier := by
  induction names generalizing earlier ids with
  | nil => exact ⟨.nil, by simp⟩
  | cons name names ih =>
    rw [resolveFields_cons] at hr
    split at hr
    · cases hr
    · rename_i f hf
      obtain ⟨hmem, hname⟩ := findField?_some hf
      split at hr
      · cases hr
      · rename_i hnew
        cases hrest : resolveFields s t token (f.id :: earlier) names with
        | error r =>
          rw [hrest] at hr
          cases hr
        | ok rest =>
          obtain ⟨hnodup, hearlier⟩ := ih hrest
          refine ⟨?_, ?_⟩
          · refine List.nodup_cons.mpr ⟨?_, hnodup⟩
            intro hrep
            exact hearlier f hmem (hname ▸ hrep) List.mem_cons_self
          · intro g hg hgname hgid
            rcases List.mem_cons.mp hgname with hgname | hgname
            · have heq : g = f :=
                List.inj_on_of_nodup_map hnames hg hmem (hgname.trans hname.symm)
              exact hnew (heq ▸ hgid)
            · exact hearlier g hg hgname (List.mem_cons_of_mem _ hgid)

/-- Fields are not found, or one of them is named again. -/
theorem resolveFields_error {s : Schema} {t : Table} {token : Span}
    (hids : ∀ f ∈ t.fields, ∀ g ∈ t.fields, f.id = g.id → f = g) {names : List String}
    (known : List String) {earlier : List (Id .field)} {r : Rejection}
    (hknown : ∀ id ∈ earlier, ∃ f ∈ t.fields, f.id = id ∧ f.name ∈ known)
    (hr : resolveFields s t token earlier names = .error r) :
    r.span = token ∧
      ((∃ name ∈ names, name ∉ t.fields.map (·.name) ∧ r.kind = .fieldNotFound) ∨
        (¬ (known ++ names).Nodup ∧ r.kind = .invalidEndpoints)) := by
  induction names generalizing earlier known with
  | nil => cases hr
  | cons name names ih =>
    rw [resolveFields_cons] at hr
    split at hr
    · rename_i hf
      cases hr
      exact ⟨rfl, .inl ⟨name, List.mem_cons_self, findField?_none hf, rfl⟩⟩
    · rename_i f hf
      obtain ⟨hmem, hname⟩ := findField?_some hf
      split at hr
      · rename_i hold
        cases hr
        obtain ⟨g, hg, hgid, hgname⟩ := hknown f.id hold
        obtain rfl := hids g hg f hmem hgid
        refine ⟨rfl, .inr ⟨?_, rfl⟩⟩
        intro hnodup
        exact (List.nodup_append.mp hnodup).2.2 _ hgname _ List.mem_cons_self hname
      · cases hrest : resolveFields s t token (f.id :: earlier) names with
        | ok rest =>
          rw [hrest] at hr
          cases hr
        | error r' =>
          rw [hrest] at hr
          cases hr
          have hknown' : ∀ id ∈ f.id :: earlier, ∃ g ∈ t.fields, g.id = id ∧
              g.name ∈ known ++ [name] := by
            intro id hid
            rcases List.mem_cons.mp hid with rfl | hid
            · exact ⟨f, hmem, rfl, by simp [hname]⟩
            · obtain ⟨g, hg, hgid, hgname⟩ := hknown id hid
              exact ⟨g, hg, hgid, List.mem_append_left _ hgname⟩
          obtain ⟨hspan, ⟨name', hname', hmiss, hkind⟩ | ⟨hrep, hkind⟩⟩ := ih _ hknown' hrest
          · exact ⟨hspan, .inl ⟨name', List.mem_cons_of_mem _ hname', hmiss, hkind⟩⟩
          · exact ⟨hspan, .inr ⟨by simpa using hrep, hkind⟩⟩

/-- An endpoint resolved to the table and the fields that it names. -/
structure Resolved.Mirrors (db : Database) (c : Config) (o : Decl.Outline) (e : Resolved)
    (d : Decl.Endpoint) : Prop where
  declared : e.declared = d
  table : ∃ p, o.tablePath? c d.schemaName d.tableName = some p ∧ (e.table, p) ∈ db.tablePaths
  fields : List.Forall₂ (fun f name => ∃ p, o.fieldPath? c d.toEndpointInfo name = some p ∧
    (f, p) ∈ db.fieldPaths) e.fields d.fieldNames

namespace Assembly.Mirrors

variable {refToken : Span} {d : Decl.Endpoint} {r : Rejection}

theorem resolveEndpoint_ok (h : a.Mirrors c project x) {e : Resolved}
    (hr : a.database.resolveEndpoint refToken d = .ok e) :
    e.Mirrors a.database c x.outline d ∧ x.outline.Resolves c d.toEndpointInfo := by
  obtain ⟨s, t, ids, htable, hfields, rfl⟩ := Database.resolveEndpoint_eq_ok hr
  have hfinds := h.resolveTable_ok htable
  have hpaired := resolveFields_paired hfields
  obtain ⟨hnodup, -⟩ :=
    resolveFields_ok (h.nodup_fieldNames hfinds.schema hfinds.table) hfields
  have hpath : ∀ name ∈ d.fieldNames, x.outline.fieldPath? c d.toEndpointInfo name
      = some ⟨⟨s.name, t.name⟩, name⟩ := by
    intro name hname
    obtain ⟨id, -, f, hf, -, rfl⟩ := exists_left_of_paired hpaired hname
    exact hfinds.fieldPath? (List.mem_map.mpr ⟨f, hf, rfl⟩)
  refine ⟨⟨rfl, ⟨_, hfinds.path, hfinds.mem_tablePaths⟩, ?_⟩, ⟨?_, ?_, ?_⟩⟩
  · apply paired_imp_of_mem hpaired
    rintro id - name hname ⟨f, hf, rfl, rfl⟩
    exact ⟨_, hpath f.name hname, Database.mem_fieldPaths.mpr
      ⟨s, hfinds.schema, t, hfinds.table, f, hf, rfl, rfl⟩⟩
  · rw [hfinds.path]
    rfl
  · intro name hname
    rw [hpath name hname]
    rfl
  · have hcover : x.outline.cover c d.toEndpointInfo
        = d.fieldNames.map fun name => some ⟨⟨s.name, t.name⟩, name⟩ :=
      List.map_congr_left hpath
    rw [hcover]
    apply hnodup.map
    intro name name' heq
    injection heq with heq
    injection heq

theorem resolveEndpoint_error (h : a.Mirrors c project x)
    (hr : a.database.resolveEndpoint refToken d = .error r) :
    x.outline.Fails c d.toEndpointInfo r.kind ∧ r.span = d.token.orElse refToken := by
  unfold Database.resolveEndpoint at hr
  cases htable : a.database.resolveTable d.schemaName d.tableName (d.token.orElse refToken) with
  | error r' =>
    simp only [htable, bind, Except.bind] at hr
    cases hr
    obtain ⟨hmiss, hspan⟩ := h.resolveTable_error htable
    exact ⟨.table hmiss, hspan⟩
  | ok found =>
    obtain ⟨s, t⟩ := found
    have hfinds := h.resolveTable_ok htable
    cases hfields : resolveFields s t (d.token.orElse refToken) [] d.fieldNames with
    | ok ids =>
      simp only [htable, bind, Except.bind, hfields] at hr
      cases hr
    | error r' =>
      simp only [htable, bind, Except.bind, hfields] at hr
      cases hr
      have hids : ∀ f ∈ t.fields, ∀ g ∈ t.fields, f.id = g.id → f = g := fun f hf g hg hid =>
        (h.eq_of_field_id hfinds.schema hfinds.table hfinds.schema hfinds.table hf hg hid).2.2
      obtain ⟨hspan, ⟨name, hname, hmiss, hkind⟩ | ⟨hrep, hkind⟩⟩ :=
        resolveFields_error hids [] (by simp) hfields
      · obtain ⟨ds, dt, hl, hfields⟩ := hfinds.found
        rw [hkind]
        exact ⟨.field hl hname (hfields ▸ hmiss), hspan⟩
      · rw [hkind]
        exact ⟨.repeated hrep, hspan⟩

/-- Endpoints have the same fields exactly if they cover the same ones in the outline. -/
theorem sameFields_iff (h : a.Mirrors c project x) {ids ids' : List (Id .field)}
    {e e' : EndpointInfo}
    (he : List.Forall₂ (fun f name => ∃ p, x.outline.fieldPath? c e name = some p ∧
      (f, p) ∈ a.database.fieldPaths) ids e.fieldNames)
    (he' : List.Forall₂ (fun f name => ∃ p, x.outline.fieldPath? c e' name = some p ∧
      (f, p) ∈ a.database.fieldPaths) ids' e'.fieldNames) :
    sameFields ids ids' = true ↔
      SameElements (x.outline.cover c e) (x.outline.cover c e') := by
  have covered : ∀ {ids : List (Id .field)} {e : EndpointInfo},
      List.Forall₂ (fun f name => ∃ p, x.outline.fieldPath? c e name = some p ∧
        (f, p) ∈ a.database.fieldPaths) ids e.fieldNames →
      List.Forall₂ (fun f q => ∃ p, q = some p ∧ (f, p) ∈ a.database.fieldPaths) ids
        (x.outline.cover c e) :=
    fun he => List.forall₂_map_right_iff.mpr he
  have within : ∀ {ids ids' : List (Id .field)} {qs qs' : List (Option FieldPath)},
      List.Forall₂ (fun f q => ∃ p, q = some p ∧ (f, p) ∈ a.database.fieldPaths) ids qs →
      List.Forall₂ (fun f q => ∃ p, q = some p ∧ (f, p) ∈ a.database.fieldPaths) ids' qs' →
      (ids ⊆ ids' ↔ qs ⊆ qs') := by
    intro ids ids' qs qs' hq hq'
    constructor
    · intro hsub q hqmem
      obtain ⟨f, hf, p, rfl, hp⟩ := exists_left_of_paired hq hqmem
      obtain ⟨q', hqmem', p', rfl, hp'⟩ := exists_right_of_paired hq' (hsub hf)
      rw [(h.fieldPath_eq_iff hp hp').mp rfl]
      exact hqmem'
    · intro hsub f hf
      obtain ⟨q, hqmem, p, rfl, hp⟩ := exists_right_of_paired hq hf
      obtain ⟨f', hf', p', heq, hp'⟩ := exists_left_of_paired hq' (hsub hqmem)
      injection heq with heq
      rw [(h.fieldPath_eq_iff hp hp').mpr heq]
      exact hf'
  have hsub := within (covered he) (covered he')
  have hsub' := within (covered he') (covered he)
  rw [Catalog.sameFields_iff]
  constructor
  · intro hsame q
    exact ⟨fun hq => hsub.mp (fun f hf => (hsame f).mp hf) hq,
      fun hq => hsub'.mp (fun f hf => (hsame f).mpr hf) hq⟩
  · intro hsame f
    exact ⟨fun hf => hsub.mpr (fun q hq => (hsame q).mp hq) hf,
      fun hf => hsub'.mpr (fun q hq => (hsame q).mpr hq) hf⟩

theorem resolveRef_ok (h : a.Mirrors c project x) {d : Decl.Ref} {first second : Resolved}
    (hr : a.database.resolveRef d = .ok (first, second)) :
    ∃ e₁ e₂, d.endpoints = [e₁, e₂] ∧ first.Mirrors a.database c x.outline e₁ ∧
      second.Mirrors a.database c x.outline e₂ ∧ x.outline.Connects c d := by
  obtain ⟨e₁, e₂, hends, h₁, h₂, hlen, hsame⟩ := Database.resolveRef_eq_ok hr
  obtain ⟨hm₁, hres₁⟩ := h.resolveEndpoint_ok h₁
  obtain ⟨hm₂, hres₂⟩ := h.resolveEndpoint_ok h₂
  refine ⟨e₁, e₂, hends, hm₁, hm₂, e₁, e₂, hends, hres₁, hres₂, ?_, ?_⟩
  · rw [← hm₁.fields.length_eq, ← hm₂.fields.length_eq]
    exact hlen
  · rw [← h.sameFields_iff hm₁.fields hm₂.fields]
    exact hsame

theorem resolveRef_error (h : a.Mirrors c project x) {d : Decl.Ref}
    (hr : a.database.resolveRef d = .error r) :
    (Decl.Item.ref d).Unlinked c x.outline r := by
  unfold Database.resolveRef at hr
  split at hr
  · rename_i e₁ e₂ hends
    cases h₁ : a.database.resolveEndpoint d.token e₁ with
    | error r' =>
      simp only [h₁, bind, Except.bind] at hr
      cases hr
      obtain ⟨hfails, hspan⟩ := h.resolveEndpoint_error h₁
      exact .endpoint (by simp [hends]) hfails hspan
    | ok first =>
      cases h₂ : a.database.resolveEndpoint d.token e₂ with
      | error r' =>
        simp only [h₁, h₂, bind, Except.bind] at hr
        cases hr
        obtain ⟨hfails, hspan⟩ := h.resolveEndpoint_error h₂
        exact .endpoint (by simp [hends]) hfails hspan
      | ok second =>
        obtain ⟨hm₁, hres₁⟩ := h.resolveEndpoint_ok h₁
        obtain ⟨hm₂, hres₂⟩ := h.resolveEndpoint_ok h₂
        simp only [h₁, h₂, bind, Except.bind] at hr
        split at hr
        · rename_i hlen
          cases hr
          rw [hm₁.fields.length_eq, hm₂.fields.length_eq] at hlen
          exact .lengths hends hlen rfl rfl
        · split at hr
          · rename_i hsame
            cases hr
            exact .same hends hres₁ hres₂ ((h.sameFields_iff hm₁.fields hm₂.fields).mp hsame)
              rfl rfl
          · cases hr
  · rename_i hcount
    cases hr
    apply Decl.Item.Unlinked.count _ rfl rfl
    intro hlen
    obtain ⟨e₁, e₂, hends⟩ := List.length_eq_two.mp hlen
    exact hcount e₁ e₂ hends

theorem endpoints_of_mirrors {r : Ref} {d : Decl.Ref} {db : Database} {o : Decl.Outline}
    (h : r.Mirrors db c o d) : ∃ e₁ e₂, d.endpoints = [e₁, e₂] ∧ r.first.Mirrors db c o e₁ ∧
      r.second.Mirrors db c o e₂ := by
  have hpaired := h.endpoints
  obtain ⟨e₁, e₂, hends⟩ := List.length_eq_two.mp (hpaired.length_eq.symm.trans rfl)
  rw [hends, Ref.endpoints, List.forall₂_cons, List.forall₂_cons] at hpaired
  exact ⟨e₁, e₂, hends, hpaired.1, hpaired.2.1⟩

/-- A ref connects the same endpoints as a stored one exactly if their declarations do. The test
asks for the endpoints of the stored ref only, which is enough since these differ. -/
theorem connectsSame_iff (h : a.Mirrors c project x) {r r' : Ref} {d d' : Decl.Ref}
    (hr : r.Mirrors a.database c x.outline d) (hr' : r'.Mirrors a.database c x.outline d')
    (hd' : x.outline.Connects c d') :
    r.connectsSame r' = true ↔ x.outline.SameEnds c d d' := by
  obtain ⟨e₁, e₂, hends, h₁, h₂⟩ := endpoints_of_mirrors hr
  obtain ⟨e₁', e₂', hends', h₁', h₂'⟩ := endpoints_of_mirrors hr'
  have same : ∀ {e e' : Endpoint} {d d' : Decl.Endpoint},
      e.Mirrors a.database c x.outline d → e'.Mirrors a.database c x.outline d' →
        (e.sameFields e' = true ↔ SameElements (x.outline.cover c d.toEndpointInfo)
          (x.outline.cover c d'.toEndpointInfo)) :=
    fun he he' => h.sameFields_iff he.fields he'.fields
  have tests : r.connectsSame r' = true ↔
      (r.first.sameFields r'.first = true ∨ r.second.sameFields r'.first = true) ∧
        (r.first.sameFields r'.second = true ∨ r.second.sameFields r'.second = true) := by
    simp [Ref.connectsSame, Ref.endpoints]
  rw [tests, same h₁ h₁', same h₂ h₁', same h₁ h₂', same h₂ h₂']
  constructor
  · rintro ⟨hfirst, hsecond⟩
    obtain ⟨d₁, d₂, hd, -, -, -, hne⟩ := hd'
    rw [hends'] at hd
    cases hd
    refine ⟨e₁, e₂, e₁', e₂', hends, hends', ?_⟩
    rcases hfirst with hf | hf <;> rcases hsecond with hs | hs
    · exact absurd (fun p => (hf p).symm.trans (hs p)) hne
    · exact .inl ⟨hf, hs⟩
    · exact .inr ⟨hs, hf⟩
    · exact absurd (fun p => (hf p).symm.trans (hs p)) hne
  · rintro ⟨d₁, d₂, d₁', d₂', hd, hd', hsame⟩
    rw [hends] at hd
    rw [hends'] at hd'
    cases hd
    cases hd'
    rcases hsame with ⟨hf, hs⟩ | ⟨hf, hs⟩
    · exact ⟨.inl hf, .inr hs⟩
    · exact ⟨.inr hs, .inl hf⟩

end Assembly.Mirrors

/-! The members of a group. -/

theorem eraseDups_concat {α : Type} [DecidableEq α] (l : List α) (y : α) :
    (l ++ [y]).eraseDups = if y ∈ l then l.eraseDups else l.eraseDups ++ [y] := by
  rw [List.eraseDups_append, List.removeAll]
  by_cases hy : y ∈ l <;> simp [hy, List.eraseDups_cons]

theorem nodup_eraseDups {α : Type} [DecidableEq α] (l : List α) : l.eraseDups.Nodup := by
  induction l using List.reverseRecOn with
  | nil => exact .nil
  | append_singleton l y ih =>
    rw [eraseDups_concat]
    split
    · exact ih
    · rename_i hy
      apply List.nodup_append.mpr
      refine ⟨ih, by simp, ?_⟩
      rintro x hx _ hxy rfl
      exact hy (List.mem_singleton.mp hxy ▸ List.mem_eraseDups.mp hx)

/-- A table of a database, by its path. -/
def Database.Holds (db : Database) (t : Table) (p : TablePath) : Prop :=
  ∃ s ∈ db.schemas, t ∈ s.tables ∧ p = ⟨s.name, t.name⟩

namespace Assembly.Mirrors

/-- A table that has been found again is left out. -/
theorem holds_found (h : a.Mirrors c project x) {s : Schema} {t : Table}
    (hfinds : a.Finds c x schemaName tableName s t) {found : List Table} {seen : List TablePath}
    (hfound : List.Forall₂ a.database.Holds found seen.eraseDups) :
    List.Forall₂ a.database.Holds (if found.any (·.id = t.id) then found else found ++ [t])
      (seen ++ [TablePath.mk s.name t.name]).eraseDups := by
  have hold : found.any (·.id = t.id) = true ↔ TablePath.mk s.name t.name ∈ seen := by
    rw [List.any_eq_true, ← List.mem_eraseDups]
    constructor
    · rintro ⟨t', ht', hid⟩
      obtain ⟨p, hp, s', hs', hts', rfl⟩ := exists_right_of_paired hfound ht'
      obtain ⟨rfl, rfl⟩ := h.eq_of_table_id hs' hts' hfinds.schema hfinds.table
        (of_decide_eq_true hid)
      exact hp
    · intro hp
      obtain ⟨t', ht', s', hs', hts', heq⟩ := exists_left_of_paired hfound hp
      have hpath' : (t'.id, TablePath.mk s'.name t'.name) ∈ a.database.tablePaths :=
        Database.mem_tablePaths.mpr ⟨s', hs', t', hts', rfl, rfl⟩
      have hid := (h.tablePath_eq_iff hpath' hfinds.mem_tablePaths).mpr heq.symm
      exact ⟨t', ht', decide_eq_true hid⟩
  rw [eraseDups_concat]
  by_cases hseen : TablePath.mk s.name t.name ∈ seen
  · rw [if_pos (hold.mpr hseen), if_pos hseen]
    exact hfound
  · rw [if_neg fun hany => hseen (hold.mp hany), if_neg hseen]
    exact paired_append hfound (.cons ⟨s, hfinds.schema, hfinds.table, rfl⟩ .nil)

theorem resolveMembers_ok (h : a.Mirrors c project x) {token : Span} {ms : List Decl.Member}
    {found ts : List Table} (seen : List TablePath)
    (hfound : List.Forall₂ a.database.Holds found seen.eraseDups)
    (hr : a.database.resolveMembers token found ms = .ok ts) :
    (∀ m ∈ ms, (x.outline.tablePath? c m.schemaName m.name).isSome) ∧
      List.Forall₂ a.database.Holds ts
        (seen ++ ms.filterMap fun m => x.outline.tablePath? c m.schemaName m.name).eraseDups := by
  induction ms generalizing found seen with
  | nil =>
    cases hr
    exact ⟨by simp, by simpa using hfound⟩
  | cons m ms ih =>
    obtain ⟨s, t, htable, hrest⟩ := Database.resolveMembers_cons hr
    have hfinds := h.resolveTable_ok htable
    obtain ⟨hsome, hpaired⟩ := ih _ (h.holds_found hfinds hfound) hrest
    refine ⟨?_, ?_⟩
    · intro m' hm'
      rcases List.mem_cons.mp hm' with rfl | hm'
      · rw [hfinds.path]
        rfl
      · exact hsome m' hm'
    · rw [List.filterMap_cons, hfinds.path]
      simpa using hpaired

theorem resolveMembers_error (h : a.Mirrors c project x) {token : Span} {ms : List Decl.Member}
    {found : List Table} {r : Rejection}
    (hr : a.database.resolveMembers token found ms = .error r) :
    ∃ m ∈ ms, x.outline.Misses c m.schemaName m.name r.kind ∧ r.span = m.token.orElse token := by
  induction ms generalizing found with
  | nil => cases hr
  | cons m ms ih =>
    unfold Database.resolveMembers at hr
    cases htable : a.database.resolveTable m.schemaName m.name (m.token.orElse token) with
    | error r' =>
      simp only [htable, bind, Except.bind] at hr
      cases hr
      exact ⟨m, List.mem_cons_self, h.resolveTable_error htable⟩
    | ok pair =>
      simp only [htable, bind, Except.bind] at hr
      obtain ⟨m', hm', hmiss⟩ := ih hr
      exact ⟨m', List.mem_cons_of_mem _ hm', hmiss⟩

end Assembly.Mirrors

end Catalog
