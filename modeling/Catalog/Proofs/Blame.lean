import Catalog.Proofs.Outline.Nested
import Catalog.Proofs.Validity

/-!
What a rejection is blamed on. A bundle is rejected as holding a duplicate only if two of its
records collide, and then the later one is to blame. For want of a schema, a table or a field it is
the endpoint or the member that names it, or else the record around that.
-/
namespace Catalog

namespace Decl

/-- Two records collide, and the later one is to blame. Names and ends are compared within the
schema that records come to stand in, in the order in which they do so. -/
inductive Bundle.Doubles (b : Bundle) (c : Config) (r : Rejection) : Prop
  | schema {d d' : Schema} {name : String} : [d, d'].Sublist b.schemas →
      d.isNamed name = true → d'.isNamed name = true → r.kind = .duplicateSchemaName →
      r.span = d'.token → Doubles b c r
  | record {s : Schema} {rec rec' : Item} {sort : ChildSort} {name : String} :
      s ∈ b.outline c → [rec, rec'].Sublist s.records → rec.label? = some (sort, name) →
      rec'.label? = some (sort, name) → r.kind = sort.violation → r.span = rec'.token →
      Doubles b c r
  | ref {s : Schema} {d d' : Ref} : s ∈ b.outline c → [d, d'].Sublist s.refs →
      (b.outline c).Connects c d → (b.outline c).Connects c d' →
      (b.outline c).SameEnds c d d' → r.kind = .duplicateRef → r.span = d'.token →
      Doubles b c r
  | field {s : Schema} {t : Table} {f f' : Field} : s ∈ b.outline c → t ∈ s.tables →
      [f, f'].Sublist t.fields → f.name = f'.name → r.kind = .duplicateFieldName →
      r.span = f'.token → Doubles b c r
  | value {s : Schema} {e : Enum} {v v' : EnumValue} : s ∈ b.outline c → e ∈ s.enums →
      [v, v'].Sublist e.values → v.name = v'.name → r.kind = .duplicateEnumValue →
      r.span = v'.token → Doubles b c r

/-- A lookup fails when the turn of its record comes. To blame is what looks it up, or the record
where that has no token of its own. -/
inductive Bundle.Dangles (b : Bundle) (c : Config) (r : Rejection) : Prop
  | endpoint {pre post : List Step} {name : String} {d : Ref} {e : Endpoint} :
      b.steps c = pre ++ .place name (.ref d) :: post → e ∈ d.endpoints →
      (({} : Stage).run c pre).outline.Fails c e.toEndpointInfo r.kind →
      r.span = e.token.orElse d.token → Dangles b c r
  | member {pre post : List Step} {name : String} {g : TableGroup} {m : Member} :
      b.steps c = pre ++ .place name (.tableGroup g) :: post → m ∈ g.tables →
      (({} : Stage).run c pre).outline.Misses c m.schemaName m.name r.kind →
      r.span = m.token.orElse g.token → Dangles b c r

/-! Turns. -/

section Turns

variable {b : Bundle} {c : Config} {pre post : List Step}

/-- A step belongs to a declared schema or comes after all of them. -/
theorem Bundle.split_steps {st : Step} (h : b.steps c = pre ++ st :: post) :
    (∃ ss s ss' pre' post', b.schemas = ss ++ s :: ss' ∧ s.steps = pre' ++ st :: post' ∧
        pre = ss.flatMap (·.steps) ++ pre') ∨
      ∃ pre', pre = b.schemas.flatMap (·.steps) ++ pre' ∧
        b.taggedRecords.flatMap (Item.steps c)
          ++ .implyTags :: b.laterRecords.flatMap (Item.steps c) = pre' ++ st :: post := by
  rw [steps, List.append_assoc] at h
  rcases split_of_append h with ⟨post', hschemas⟩ | hlater
  · exact .inl (split_of_flatMap hschemas)
  · exact .inr hlater

/-- When the turn of a schema comes, those declared before it are there and no others. -/
theorem Bundle.infos_of_declare {d : Schema} (h : b.steps c = pre ++ .declare d :: post) :
    ∃ ss ss', b.schemas = ss ++ d :: ss' ∧
      (({} : Stage).run c pre).outline.map (·.toSchemaInfo) = ss.map (·.toSchemaInfo) := by
  rcases split_steps h with ⟨ss, s, ss', pre', post', hschemas, hs, rfl⟩ | ⟨pre', -, hlater⟩
  · cases pre' with
    | nil =>
      injection hs with hst
      injection hst with hsd
      rw [← hsd, List.append_nil]
      exact ⟨ss, ss', hschemas, Stage.infos_run_schemas {} ss⟩
    | cons st pre' =>
      injection hs with _ hrest
      have hmem : Step.declare d ∈ s.records.map (.place s.name) ++ [.close s.name] :=
        hrest ▸ List.mem_append_right _ List.mem_cons_self
      simp at hmem
  · have hmem : Step.declare d ∈ b.taggedRecords.flatMap (Item.steps c)
        ++ .implyTags :: b.laterRecords.flatMap (Item.steps c) :=
      hlater ▸ List.mem_append_right _ List.mem_cons_self
    simp [Item.steps] at hmem

theorem Stage.grows_of_run_place {x : Stage} {name : String} {rec : Item} {o : Outline}
    (h : (x.run c (.place name rec :: post)).outline = o) :
    (x.outline.place name rec).Grows o :=
  h ▸ grows_run c (x.step c (.place name rec)) post

/-- A schema whose records are being placed is apart from those before it. -/
theorem Bundle.apart_of_nested {ss : List Schema} {s : Schema} {pre post : List Step}
    {name : String} {rec : Item} (hs : s.steps = pre ++ .place name rec :: post)
    (hsound : (({} : Stage).run c (ss.flatMap (·.steps) ++ pre)).outline.Sound c) :
    (ss ++ [s]).Pairwise Schema.Apart := by
  apply Outline.pairwise_apart_of_infos _ hsound.apart
  obtain ⟨rs, -, -, rfl⟩ := Schema.split_steps hs
  rw [Stage.run_append, Stage.run, List.foldl_cons, ← Stage.run, Stage.infos_run_places]
  simp only [Stage.step, List.map_append, Stage.infos_run_schemas]
  rfl

theorem Bundle.grows_of_nested {ss ss' : List Schema} {s : Schema} {pre post : List Step}
    {name : String} {rec : Item} (hschemas : b.schemas = ss ++ s :: ss')
    (hs : s.steps = pre ++ .place name rec :: post)
    (hsound : (({} : Stage).run c (ss.flatMap (·.steps) ++ pre)).outline.Sound c) :
    ((({} : Stage).run c (ss.flatMap (·.steps) ++ pre)).outline.place name rec).Grows
      (b.outline c) := by
  have apart : (ss ++ [s]).Pairwise Schema.Apart := apart_of_nested hs hsound
  have hsteps : ss.flatMap (·.steps) ++ pre ++ .place name rec :: post
      = (ss ++ [s]).flatMap (·.steps) := by
    simp [hs]
  have hrun : ((({} : Stage).run c (ss.flatMap (·.steps) ++ pre)).run c
      (.place name rec :: post)).outline = ss ++ [s] := by
    rw [← Stage.run_append, hsteps]
    exact congrArg Stage.outline (Stage.run_schemas (x := {}) apart)
  have hfirst : b.schemas = (ss ++ [s]) ++ ss' := by simp [hschemas]
  exact (Stage.grows_of_run_place hrun).trans (grows_outline hfirst)

/-- Whatever becomes of the build later on, a record that is placed in a sound outline goes on into
the outline of its bundle. -/
theorem Bundle.grows_of_place {name : String} {rec : Item}
    (h : b.steps c = pre ++ .place name rec :: post)
    (hsound : (({} : Stage).run c pre).outline.Sound c) :
    ((({} : Stage).run c pre).outline.place name rec).Grows
      ((b.outline c).map (·.withImpliedTags)) := by
  rcases split_steps h with ⟨ss, s, ss', pre', post', hschemas, hs, rfl⟩ | ⟨pre', rfl, -⟩
  · apply (grows_of_nested hschemas hs hsound).trans
    exact Outline.grows_map _ fun s _ => s.grows_withImpliedTags
  · have hrun : ((({} : Stage).run c (b.schemas.flatMap (·.steps) ++ pre')).run c
        (.place name rec :: post)).outline = (b.outline c).map (·.withImpliedTags) := by
      rw [← Stage.run_append, ← h, run_steps c (apart_of_run hsound)]
    exact Stage.grows_of_run_place hrun

end Turns

/-! Pairs. -/

theorem pair_sublist_of_begins {α : Type} {l l' : List α} {a z : α} (h : l ++ [z] <+: l')
    (ha : a ∈ l) : [a, z].Sublist l' :=
  ((List.singleton_sublist.mpr ha).append (List.Sublist.refl [z])).trans h.sublist

theorem exists_pair_of_mem_map {α : Type} {f : α → String} {pre post : List α} {z : α}
    (h : f z ∈ pre.map f) : ∃ a, f a = f z ∧ [a, z].Sublist (pre ++ z :: post) := by
  obtain ⟨a, ha, hf⟩ := List.mem_map.mp h
  exact ⟨a, hf, pair_sublist_of_begins (by simp) ha⟩

namespace Schema

variable {s t : Schema}

/-- Implied tags have new names, so two tags of one name are both declared. -/
theorem pair_of_withImpliedTags {d d' : Tag} (h : [d, d'].Sublist t.withImpliedTags.tags)
    (hname : d.name = d'.name) : [d, d'].Sublist t.tags := by
  obtain ⟨l, l', heq, hl, hl'⟩ := List.sublist_append_iff.mp h
  cases l with
  | nil =>
    cases heq
    have hn := (hl'.map (·.name)).nodup (nodup_impliedTags _ _)
    simp [hname] at hn
  | cons e l =>
    injection heq with he hrest
    cases l with
    | nil =>
      cases hrest
      have hmem := List.mem_map_of_mem (f := (·.name)) (hl'.subset List.mem_cons_self)
      have hnew := (mem_impliedTags_name.mp hmem).1
      rw [← hname, he] at hnew
      exact absurd (List.mem_map_of_mem (hl.subset List.mem_cons_self)) hnew
    | cons e' l =>
      injection hrest with he' hrest
      rw [he, he']
      exact (((List.nil_sublist l).cons_cons e').cons_cons e).trans hl

theorem exists_pair_of_label {α : Type} {f : α → Item} {g : α → String} {l l' : List α} {d : α}
    {sort : ChildSort} {name : String} {recs : List Item} (hname : name ∈ l.map g)
    (hlabel : ∀ d', g d' = name → (f d').label? = some (sort, name))
    (hpair : ∀ d' ∈ l, g d' = name → [d', d].Sublist l') (hrecs : (l'.map f).Sublist recs) :
    ∃ rec', rec'.label? = some (sort, name) ∧ [rec', f d].Sublist recs := by
  obtain ⟨d', hd', heq⟩ := List.mem_map.mp hname
  exact ⟨f d', hlabel d' heq, ((hpair d' hd' heq).map f).trans hrecs⟩

/-- A record whose name is taken comes after the one that took it, in whatever its schema grows
to. -/
theorem exists_pair_of_taken {rec : Item} {sort : ChildSort} {name : String}
    (h : (s.add rec).Grows t.withImpliedTags) (hlabel : rec.label? = some (sort, name))
    (hname : name ∈ s.names sort) :
    ∃ rec', rec'.label? = some (sort, name) ∧ [rec', rec].Sublist t.records := by
  cases rec with
  | table d =>
    cases hlabel
    exact exists_pair_of_label hname (fun _ heq => by simp [Item.label?, heq])
      (fun _ hd _ => pair_sublist_of_begins h.tables hd) (by grind [withImpliedTags, records])
  | tag d =>
    cases hlabel
    exact exists_pair_of_label hname (fun _ heq => by simp [Item.label?, heq])
      (fun _ hd heq => pair_of_withImpliedTags (pair_sublist_of_begins h.tags hd) heq)
      (by grind [records])
  | enum d =>
    cases hlabel
    exact exists_pair_of_label hname (fun _ heq => by simp [Item.label?, heq])
      (fun _ hd _ => pair_sublist_of_begins h.enums hd) (by grind [withImpliedTags, records])
  | ref d => cases hlabel
  | tableGroup d =>
    cases hlabel
    exact exists_pair_of_label hname (fun _ heq => by simp [Item.label?, heq])
      (fun _ hd _ => pair_sublist_of_begins h.tableGroups hd) (by grind [withImpliedTags, records])

end Schema

/-! Refusals. -/

variable {b : Bundle} {c : Config} {o : Outline} {s : Schema} {rec : Item} {r : Rejection}

theorem Outline.Misses.not_isDuplicate {schemaName : Option String} {tableName : String}
    {k : ViolationKind} (h : o.Misses c schemaName tableName k) : k.isDuplicate = false := by
  cases h <;> rfl

theorem Outline.Fails.not_isDuplicate {e : EndpointInfo} {k : ViolationKind}
    (h : o.Fails c e k) : k.isDuplicate = false := by
  cases h with
  | table hm => exact hm.not_isDuplicate
  | field => rfl
  | repeated => rfl

theorem Item.Unlinked.not_isDuplicate (h : rec.Unlinked c o r) : r.isDuplicate = false := by
  unfold Rejection.isDuplicate
  cases h with
  | endpoint _ hf => exact hf.not_isDuplicate
  | member _ hm => exact hm.not_isDuplicate
  | count _ hkind => rw [hkind]; rfl
  | lengths _ _ hkind => rw [hkind]; rfl
  | same _ _ _ _ hkind => rw [hkind]; rfl

/-- What stands in the way of a record in its schema stands before it in the outline of the
bundle. -/
theorem Item.Refused.doubles (h : rec.Refused c o s r) (hdup : r.isDuplicate = true)
    {name : String} (hs : o.schema? name = some s)
    (hg : (o.place name rec).Grows ((b.outline c).map (·.withImpliedTags))) :
    b.Doubles c r := by
  obtain ⟨_, hmem, hgs⟩ := hg.mem (Outline.mem_place_self (r := rec) hs)
  obtain ⟨t, ht, rfl⟩ := List.mem_map.mp hmem
  cases h with
  | unlinked hu =>
    rw [hu.not_isDuplicate] at hdup
    cases hdup
  | taken hlabel hname hkind hspan =>
    obtain ⟨rec', hlabel', hpair⟩ := Schema.exists_pair_of_taken hgs hlabel hname
    exact .record ht hpair hlabel' hlabel hkind hspan
  | @field d pre post f _ hd hf hkind hspan =>
    obtain ⟨f', hf', hpair⟩ := exists_pair_of_mem_map hf
    have hmem : d ∈ t.tables := hgs.tables.subset (List.mem_append_right _ List.mem_cons_self)
    exact .field ht hmem (hd ▸ hpair) hf' hkind hspan
  | @value d pre post v _ hd hv hkind hspan =>
    obtain ⟨v', hv', hpair⟩ := exists_pair_of_mem_map hv
    have hmem : d ∈ t.enums := hgs.enums.subset (List.mem_append_right _ List.mem_cons_self)
    exact .value ht hmem (hd ▸ hpair) hv' hkind hspan
  | ends hc hc' hd' hsame hkind hspan =>
    have hgrow := (Outline.grows_place o name _).trans hg
    have halike := Outline.alike_withImpliedTags c (b.outline c)
    have hsame' := (Outline.sameEnds_iff_of_grows hc' hc hgrow).mpr hsame.symm
    exact .ref ht (pair_sublist_of_begins hgs.refs hd') (halike.connects (hc'.of_grows hgrow))
      (halike.connects (hc.of_grows hgrow)) (halike.sameEnds hsame') hkind hspan
  | grouped _ _ _ _ hkind =>
    rw [Rejection.isDuplicate, hkind] at hdup
    cases hdup

theorem Bundle.doubles_of_refuses (h : ({} : Stage).Refuses c (b.steps c) r)
    (hdup : r.isDuplicate = true) : b.Doubles c r := by
  obtain ⟨pre, st, post, hsteps, hsound, hr⟩ := h.exists_split
  cases hr with
  | @declare d s name _ hs hsn hdn hkind hspan =>
    obtain ⟨ss, ss', hschemas, hinfos⟩ := infos_of_declare hsteps
    have hmem : s.toSchemaInfo ∈ ss.map (·.toSchemaInfo) := hinfos ▸ List.mem_map_of_mem hs
    obtain ⟨d', hd', hinfo⟩ := List.mem_map.mp hmem
    rw [← hinfo] at hsn
    apply Doubles.schema _ hsn hdn hkind hspan
    rw [hschemas]
    exact pair_sublist_of_begins (by simp) hd'
  | place hs hrefused => exact hrefused.doubles hdup hs (grows_of_place hsteps hsound)
  | exhausted _ hkind =>
    rw [Rejection.isDuplicate, hkind] at hdup
    cases hdup

theorem Bundle.dangles_of_refuses (h : ({} : Stage).Refuses c (b.steps c) r)
    (hkind : r.kind ∈ [.schemaNotFound, .tableNotFound, .fieldNotFound]) : b.Dangles c r := by
  obtain ⟨pre, st, post, hsteps, -, hr⟩ := h.exists_split
  cases hr with
  | declare _ _ _ hk => simp [hk] at hkind
  | place _ hrefused =>
    cases hrefused with
    | unlinked hu =>
      cases hu with
      | endpoint he hf hspan => exact .endpoint hsteps he hf hspan
      | member hm hmiss hspan => exact .member hsteps hm hmiss hspan
      | count _ hk => simp [hk] at hkind
      | lengths _ _ hk => simp [hk] at hkind
      | same _ _ _ _ hk => simp [hk] at hkind
    | @taken _ _ sort _ _ _ hk => cases sort <;> simp [hk, ChildSort.violation] at hkind
    | field _ _ hk => simp [hk] at hkind
    | value _ _ hk => simp [hk] at hkind
    | ends _ _ _ _ hk => simp [hk] at hkind
    | grouped _ _ _ _ hk => simp [hk] at hkind
  | exhausted _ hk => simp [hk] at hkind

end Decl

/-- A rejected duplicate is there, and the later record is to blame for it. A lookup that is
rejected fails, and what looks up is to blame for it, or the record around that. -/
theorem Database.blames_of_build {b : Decl.Bundle} {c : Config} {r : Rejection}
    (h : build b c = .error r) :
    (r.isDuplicate = true → b.Doubles c r) ∧
      (r.kind ∈ [.schemaNotFound, .tableNotFound, .fieldNotFound] → b.Dangles c r) := by
  have hrefuses := Assembly.refuses_of_build (Database.build_eq_error_iff.mp h)
  exact ⟨Decl.Bundle.doubles_of_refuses hrefuses, Decl.Bundle.dangles_of_refuses hrefuses⟩

/-- A table outside of a schema that one nested in it has the name of. -/
def Decl.Bundle.ledgers : Decl.Bundle where
  schemas := [{ name := "books", aliasName := some "b",
                tables := [{ name := "ledger", token := ⟨10, 16⟩ }] }]
  tables := [{ name := "ledger", schemaName := some "b", token := ⟨30, 36⟩ }]

/-- A ref to a table that is not there, at an endpoint without a token. -/
def Decl.Bundle.arrows : Decl.Bundle where
  tables := [{ name := "people", fields := [.ofType "id" "int"] }]
  refs := [{ endpoints := [.covering "people" ["id"] .one, .covering "visits" ["person"] .many],
             token := ⟨40, 72⟩ }]

theorem Database.exists_rejection_of_test {b : Decl.Bundle} (test : Rejection → Bool)
    (h : (match build b {} with
      | .error r => test r
      | .ok _ => false) = true) :
    ∃ r, build b {} = .error r ∧ test r = true := by
  split at h
  · rename_i r hr
    exact ⟨r, hr, h⟩
  · cases h

theorem Database.exists_rejection {b : Decl.Bundle} (kind : ViolationKind) (span : Span)
    (h : (match build b {} with
      | .error r => decide (r.kind = kind ∧ r.span = span)
      | .ok _ => false) = true) :
    ∃ r, build b {} = .error r ∧ r.kind = kind ∧ r.span = span := by
  obtain ⟨r, hr, htest⟩ := exists_rejection_of_test _ h
  exact ⟨r, hr, of_decide_eq_true htest⟩

theorem Database.blames_of_build_ledgers :
    (∃ r, build .ledgers {} = .error r ∧ r.kind = .duplicateTableName ∧ r.span = ⟨30, 36⟩ ∧
        Decl.Bundle.ledgers.Doubles {} r) ∧
      ∃ r, build .arrows {} = .error r ∧ r.kind = .tableNotFound ∧ r.span = ⟨40, 72⟩ ∧
        Decl.Bundle.arrows.Dangles {} r := by
  constructor
  · obtain ⟨r, hr, hkind, hspan⟩ := exists_rejection (b := .ledgers)
      .duplicateTableName ⟨30, 36⟩ (by decide +kernel)
    exact ⟨r, hr, hkind, hspan, (blames_of_build hr).1 (by rw [Rejection.isDuplicate, hkind]; rfl)⟩
  · obtain ⟨r, hr, hkind, hspan⟩ := exists_rejection (b := .arrows)
      .tableNotFound ⟨40, 72⟩ (by decide +kernel)
    exact ⟨r, hr, hkind, hspan, (blames_of_build hr).2 (by simp [hkind])⟩

end Catalog
