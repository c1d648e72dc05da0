import Catalog.Proofs.Outline.Stage

/-!
What a refusal excludes. Names that are taken stay taken and links that are there stay there, so a
step that is refused for anything but a link leads to no sound outline, whatever comes after it.
-/
namespace Catalog.Decl

namespace Outline

variable {c : Config} {o o' : Outline} {e : EndpointInfo} {k : ViolationKind}

theorem Misses.tablePath?_eq_none {schemaName : Option String} {tableName : String}
    (h : o.Misses c schemaName tableName k) : o.tablePath? c schemaName tableName = none := by
  cases h with
  | schema hs => simp [tablePath?, locate?, hs]
  | table hs ht => simp [tablePath?, locate?, hs, ht]

theorem Resolves.nodup_fieldNames (h : o.Resolves c e) : e.fieldNames.Nodup :=
  List.Pairwise.of_map _ (fun _ _ hne heq => hne (congrArg _ heq)) h.nodup

theorem Resolves.not_fails (h : o.Resolves c e) : ¬ o.Fails c e k := by
  intro hf
  cases hf with
  | table hm =>
    have hp := h.table
    rw [hm.tablePath?_eq_none] at hp
    cases hp
  | field hl hname hmiss =>
    have hp := h.fields _ hname
    rw [fieldPath?, hl, Option.bind_some, if_neg hmiss] at hp
    cases hp
  | repeated hrep => exact hrep h.nodup_fieldNames

/-- The schemas that one outline knows have all their tables. -/
def Complete (o o' : Outline) : Prop :=
  ∀ name s, o.schema? name = some s → ∃ s', o'.schema? name = some s' ∧ s'.tables = s.tables

/-- Where the tables that are there are all there will be, only schemas can be missing. -/
theorem Misses.kind_eq {schemaName : Option String} {tableName : String}
    (h : o.Misses c schemaName tableName k) (ho : o.Complete o')
    (hp : (o'.tablePath? c schemaName tableName).isSome) : k = .schemaNotFound := by
  cases h with
  | schema _ => rfl
  | table hs ht =>
    obtain ⟨s', hs', htables⟩ := ho _ _ hs
    rw [← htables] at ht
    rw [Misses.tablePath?_eq_none (.table hs' ht)] at hp
    cases hp

theorem Fails.kind_eq (h : o.Fails c e k) (ho : o.Complete o') (hr : o'.Resolves c e) :
    k = .schemaNotFound := by
  cases h with
  | table hm => exact hm.kind_eq ho hr.table
  | field hl hname hmiss =>
    obtain ⟨hs, ht⟩ := locate?_eq_some_iff.mp hl
    obtain ⟨s', hs', htables⟩ := ho _ _ hs
    rw [← htables] at ht
    exact absurd (.field (locate?_eq_some_iff.mpr ⟨hs', ht⟩) hname hmiss) hr.not_fails
  | repeated hrep => exact absurd hr.nodup_fieldNames hrep

theorem mem_members {g : TableGroup} {p : TablePath} :
    p ∈ o.members c g ↔ ∃ m ∈ g.tables, o.tablePath? c m.schemaName m.name = some p := by
  unfold members
  rw [List.mem_eraseDups, List.mem_filterMap]

theorem Grows.mem_members (h : o.Grows o') {g : TableGroup} {p : TablePath}
    (hp : p ∈ o.members c g) : p ∈ o'.members c g := by
  rw [Outline.mem_members] at hp ⊢
  obtain ⟨m, hm, hpath⟩ := hp
  exact ⟨m, hm, h.tablePath? hpath⟩

end Outline

namespace Item

variable {c : Config} {o o' : Outline} {s : Schema} {rec : Item} {r : Rejection}

theorem Unlinked.not_links (h : rec.Unlinked c o r) : ¬ rec.Links c o := by
  intro hl
  cases h with
  | count hlen =>
    obtain ⟨e₁, e₂, hends, -⟩ := hl
    simp [hends] at hlen
  | endpoint he hf => exact (Outline.Connects.resolves hl he).not_fails hf
  | lengths hends hlen =>
    obtain ⟨e₁, e₂, hends', -, -, heq, -⟩ := hl
    rw [hends] at hends'
    cases hends'
    exact hlen heq
  | same hends _ _ hsame =>
    obtain ⟨e₁, e₂, hends', -, -, -, hne⟩ := hl
    rw [hends] at hends'
    cases hends'
    exact hne hsame
  | member hm hmiss =>
    have hp := hl _ hm
    rw [hmiss.tablePath?_eq_none] at hp
    cases hp

theorem Unlinked.kind_eq (h : rec.Unlinked c o r) (hg : o.Grows o') (ho : o.Complete o')
    (hl : rec.Links c o') : r.kind = .schemaNotFound := by
  cases h with
  | count hlen =>
    obtain ⟨e₁, e₂, hends, -⟩ := hl
    simp [hends] at hlen
  | endpoint he hf => exact hf.kind_eq ho (Outline.Connects.resolves hl he)
  | lengths hends hlen =>
    obtain ⟨e₁, e₂, hends', -, -, heq, -⟩ := hl
    rw [hends] at hends'
    cases hends'
    exact absurd heq hlen
  | same hends h₁ h₂ hsame =>
    obtain ⟨e₁, e₂, hends', -, -, -, hne⟩ := hl
    rw [hends] at hends'
    cases hends'
    rw [h₁.cover_eq hg, h₂.cover_eq hg] at hne
    exact absurd hsame hne
  | member hm hmiss => exact hmiss.kind_eq ho (hl _ hm)

theorem not_nodup_of_mem {α : Type} {f : α → String} {pre post : List α} {a : α}
    (h : f a ∈ pre.map f) : ¬ ((pre ++ a :: post).map f).Nodup := by
  rw [List.map_append, List.map_cons]
  intro hn
  exact (List.nodup_append.mp hn).2.2 _ h _ List.mem_cons_self rfl

/-- The schema that a record was to be placed in would have to hold it, and cannot. -/
theorem Refused.unlinked_of_sound (h : rec.Refused c o s r) {name : String}
    (hs : o.schema? name = some s) (hg : (o.place name rec).Grows o') (ho' : o'.Sound c) :
    rec.Unlinked c o r := by
  have hgrow : o.Grows o' := (Outline.grows_place o name rec).trans hg
  obtain ⟨s', hs', hgs⟩ := hg.mem (Outline.mem_place_self (r := rec) hs)
  have distinct : (s.add rec).Distinct := (ho'.distinct s' hs').of_grows hgs
  cases h with
  | unlinked h => exact h
  | @taken _ _ sort _ hl hname =>
    have hn := distinct.names sort
    rw [Schema.names_add hl] at hn
    exact absurd rfl ((List.nodup_append.mp hn).2.2 _ hname _ List.mem_cons_self)
  | field hd hf =>
    have hn := distinct.fields _ (List.mem_append_right _ List.mem_cons_self)
    rw [hd] at hn
    exact absurd hn (not_nodup_of_mem hf)
  | value hd hv =>
    have hn := distinct.values _ (List.mem_append_right _ List.mem_cons_self)
    rw [hd] at hn
    exact absurd hn (not_nodup_of_mem hv)
  | ends hc hc' hd' hsame =>
    have hpair := (ho'.refsApart s' hs').sublist hgs.refs.sublist
    have hne := (List.pairwise_append.mp hpair).2.2 _ hd' _ List.mem_cons_self
    exact absurd ((Outline.sameEnds_iff_of_grows hc' hc hgrow).mpr hsame.symm) hne
  | @grouped g g' s'' p _ hp hs'' hg' hp' =>
    have hsub := hg.flatMap_sublist fun s s' hs => hs.tableGroups.sublist
    have hpair := ho'.groupsApart.sublist hsub
    have apart : o.Pairwise Schema.Apart := Outline.apart_of_grows ho'.apart hgrow
    have hperm := Outline.tableGroups_place apart hs g
    rw [hperm.pairwise_iff fun hne => Outline.groupsApart_symm hne] at hpair
    have hne := (List.pairwise_cons.mp hpair).1 g' (List.mem_flatMap.mpr ⟨s'', hs'', hg'⟩)
    exact absurd (hgrow.mem_members hp') (hne p (hgrow.mem_members hp))

end Item

theorem Step.Refused.unlinked_of_sound {c : Config} {x : Stage} {st : Step} {r : Rejection}
    {o' : Outline} (h : st.Refused c x r) (hg : (x.step c st).outline.Grows o')
    (ho' : o'.Sound c) : ∃ name rec, st = .place name rec ∧ rec.Unlinked c x.outline r := by
  cases h with
  | @declare d s name _ hs hsn hdn =>
    have apart : (x.outline ++ [d.header]).Pairwise Schema.Apart :=
      Outline.apart_of_grows ho'.apart hg
    exact absurd ⟨hsn, hdn⟩ ((List.pairwise_append.mp apart).2.2 s hs _ List.mem_cons_self name)
  | place hs hr => exact ⟨_, _, rfl, hr.unlinked_of_sound hs hg ho'⟩
  | exhausted hroom => exact absurd (ho'.room.of_grows hg) hroom

/-- A build that is bound for a sound outline is refused only where a record finds no link. -/
theorem Stage.Refuses.unlinked_of_sound {c : Config} {x : Stage} {steps : List Step}
    {r : Rejection} (h : x.Refuses c steps r) (hsound : (x.run c steps).outline.Sound c) :
    ∃ pre name rec post, steps = pre ++ .place name rec :: post ∧
      rec.Unlinked c (x.run c pre).outline r := by
  obtain ⟨pre, st, post, rfl, -, hr⟩ := h.exists_split
  rw [run_append] at hsound
  obtain ⟨name, rec, rfl, hlink⟩ := hr.unlinked_of_sound (Stage.grows_run c _ post) hsound
  exact ⟨pre, name, rec, post, rfl, hlink⟩

end Catalog.Decl
