import Catalog.Flat.Bucket
import Catalog.Proofs.Mirror
import Mathlib.Data.List.Perm.Basic

/-!
Filing records: where all identifiers are different, nothing that is filed takes the place of
another record, and looking up an identifier finds the record that was filed under it.
-/
namespace Catalog.Bucket

variable {k k' : Kind} {α β : Type}

theorem perm_insertEntry {id : Id k} {a : α} {es : List (Id k × α)} (h : id ∉ es.map (·.1)) :
    (insertEntry id a es).Perm ((id, a) :: es) := by
  induction es with
  | nil => exact .refl _
  | cons e es ih =>
    obtain ⟨i, b⟩ := e
    rw [List.map_cons, List.mem_cons, not_or] at h
    unfold insertEntry
    split
    · exact .refl _
    · rw [if_neg h.1]
      exact ((ih h.2).cons _).trans (.swap _ _ _)

/-- Records with different identifiers are all filed. -/
theorem entries_ofList {es : List (Id k × α)} (h : (es.map (·.1)).Nodup) :
    (ofList es).entries.Perm es := by
  have hfold : ∀ (es : List (Id k × α)) (b : Bucket k α), ((b.entries ++ es).map (·.1)).Nodup →
      (es.foldl (fun b e => b.insert e.1 e.2) b).entries.Perm (b.entries ++ es) := by
    intro es
    induction es with
    | nil =>
      intro b _
      rw [List.append_nil]
      exact .refl _
    | cons e es ih =>
      intro b hb
      rw [List.perm_middle.map _ |>.nodup_iff, List.map_cons, List.nodup_cons] at hb
      obtain ⟨hnew, hrest⟩ := hb
      rw [List.map_append, List.mem_append, not_or] at hnew
      have hinsert : (b.insert e.1 e.2).entries.Perm (e :: b.entries) := perm_insertEntry hnew.1
      have hall : ((b.insert e.1 e.2).entries ++ es).Perm (e :: (b.entries ++ es)) :=
        hinsert.append_right es
      have hnodup : (((b.insert e.1 e.2).entries ++ es).map (·.1)).Nodup := by
        rw [(hall.map _).nodup_iff, List.map_cons, List.nodup_cons, List.map_append,
          List.mem_append, not_or]
        exact ⟨hnew, List.map_append ▸ hrest⟩
      exact (ih _ hnodup).trans (hall.trans List.perm_middle.symm)
  exact hfold es {} h

/-- A bucket's own entries, filed again, make up that bucket. -/
theorem ofList_entries (b : Bucket k α) : ofList b.entries = b := by
  have hn : (b.entries.map (·.1)).Nodup :=
    List.pairwise_map.mpr <| b.ascending.imp fun hlt heq =>
      Nat.ne_of_lt hlt (congrArg Id.toNat heq)
  have heq : (ofList b.entries).entries = b.entries := by
    apply (entries_ofList hn).eq_of_pairwise _ (ofList _).ascending b.ascending
    intro e e' _ _ hlt hgt
    exact absurd (Nat.lt_trans hlt hgt) (Nat.lt_irrefl _)
  rw [← Bucket.mk.injEq _ (ofList _).ascending _ b.ascending] at heq
  exact heq

theorem get?_eq_some_iff {b : Bucket k α} {i : Id k} {a : α} :
    b.get? i = some a ↔ (i, a) ∈ b.entries := by
  unfold get?
  rw [Option.map_eq_some_iff]
  constructor
  · rintro ⟨⟨j, a'⟩, hfind, rfl⟩
    have hid := List.find?_some (p := fun e : Id k × α => decide (e.1 = i)) hfind
    have heq : j = i := of_decide_eq_true hid
    exact heq ▸ List.mem_of_find?_eq_some hfind
  · intro hmem
    have hsome : (b.entries.find? (·.1 = i)).isSome = true :=
      List.find?_isSome.mpr ⟨_, hmem, decide_eq_true rfl⟩
    obtain ⟨e, he⟩ := Option.isSome_iff_exists.mp hsome
    have hid := List.find?_some (p := fun e : Id k × α => decide (e.1 = i)) he
    have hmem' := List.mem_of_find?_eq_some he
    refine ⟨e, he, ?_⟩
    -- Identifiers ascend strictly, so one of them has one record.
    have hinj : (b.entries.map (·.1.toNat)).Nodup :=
      (List.pairwise_map.mpr b.ascending).imp Nat.ne_of_lt
    have heq : e = (i, a) :=
      List.inj_on_of_nodup_map hinj hmem' hmem (by rw [of_decide_eq_true hid])
    rw [heq]

/-! Records of children, filed owner by owner. -/

section Children

variable {ω χ : Type} {os : List ω} {cs : ω → List χ} {cid : χ → Id k} {g : ω → χ → α}
  (hn : ((os.flatMap cs).map cid).Nodup)

omit hn in
theorem map_children : (os.flatMap fun o => (cs o).map fun c => (cid c, g o c)).map (·.1)
    = (os.flatMap cs).map cid := by
  simp only [List.map_flatMap, List.map_map, Function.comp_def]

include hn

theorem entries_children :
    (ofList (os.flatMap fun o => (cs o).map fun c => (cid c, g o c))).entries.Perm
      (os.flatMap fun o => (cs o).map fun c => (cid c, g o c)) := by
  apply entries_ofList
  rw [map_children]
  exact hn

theorem ids_children :
    (ofList (os.flatMap fun o => (cs o).map fun c => (cid c, g o c))).ids.Perm
      ((os.flatMap cs).map cid) := by
  have hids := (entries_children (g := g) hn).map (·.1)
  rw [map_children] at hids
  exact hids

/-- What is found under an identifier is the record of a child with it. -/
theorem get?_children {i : Id k} {r : α} :
    (ofList (os.flatMap fun o => (cs o).map fun c => (cid c, g o c))).get? i = some r ↔
      ∃ o ∈ os, ∃ c ∈ cs o, i = cid c ∧ r = g o c := by
  rw [get?_eq_some_iff, (entries_children hn).mem_iff, List.mem_flatMap]
  constructor
  · rintro ⟨o, ho, hmem⟩
    obtain ⟨c, hc, heq⟩ := List.mem_map.mp hmem
    obtain ⟨rfl, rfl⟩ := Prod.mk.inj heq
    exact ⟨o, ho, c, hc, rfl, rfl⟩
  · rintro ⟨o, ho, c, hc, rfl, rfl⟩
    exact ⟨o, ho, List.mem_map.mpr ⟨c, hc, rfl⟩⟩

end Children

/-- Every child is on the list of the record that it names as its parent, once, and on the list of
no other record. -/
def Parents (owners : Bucket k α) (children : Bucket k' β) (list : α → List (Id k'))
    (parent : β → Id k) : Prop :=
  ∀ i c, children.get? i = some c →
    (∃ o, owners.get? (parent c) = some o ∧ (list o).count i = 1) ∧
    ∀ j o, owners.get? j = some o → i ∈ list o → j = parent c

/-- The records of a bucket are those of some owners, each with its list of identifiers. -/
def Lists {ω : Type} (b : Bucket k α) (list : α → List (Id k')) (os : List ω) (oid : ω → Id k)
    (ids : ω → List (Id k')) : Prop :=
  (∀ j r, b.get? j = some r → ∃ o ∈ os, j = oid o ∧ list r = ids o) ∧
    ∀ o ∈ os, ∃ r, b.get? (oid o) = some r ∧ list r = ids o

/-- Owners that have been filed as children of others. -/
theorem lists_children {γ ω : Type} {gs : List γ} {os : γ → List ω} {oid : ω → Id k}
    {flat : γ → ω → α} {list : α → List (Id k')} {ids : ω → List (Id k')}
    (hn : ((gs.flatMap os).map oid).Nodup) (hlist : ∀ g o, list (flat g o) = ids o) :
    (ofList (gs.flatMap fun g => (os g).map fun o => (oid o, flat g o))).Lists list
      (gs.flatMap os) oid ids := by
  constructor
  · intro j r hj
    obtain ⟨g, hg, o, ho, rfl, rfl⟩ := (get?_children hn).mp hj
    exact ⟨o, List.mem_flatMap.mpr ⟨g, hg, ho⟩, rfl, hlist g o⟩
  · intro o ho
    obtain ⟨g, hg, ho⟩ := List.mem_flatMap.mp ho
    exact ⟨flat g o, (get?_children hn).mpr ⟨g, hg, o, ho, rfl, rfl⟩, hlist g o⟩

/-- Filing the children of owners, each under its owner, gives them parents. -/
theorem Lists.parents {ω χ : Type} {owners : Bucket k α} {list : α → List (Id k')}
    {parent : β → Id k} {os : List ω} {oid : ω → Id k} {cs : ω → List χ} {cid : χ → Id k'}
    {flat : ω → χ → β} (hl : owners.Lists list os oid fun o => (cs o).map cid)
    (hn : ((os.flatMap cs).map cid).Nodup) (hparent : ∀ o c, parent (flat o c) = oid o) :
    owners.Parents (ofList (os.flatMap fun o => (cs o).map fun c => (cid c, flat o c))) list
      parent := by
  intro i r hi
  obtain ⟨o, ho, c, hc, rfl, rfl⟩ := (get?_children hn).mp hi
  rw [List.map_flatMap] at hn
  obtain ⟨ro, hfound, hlist⟩ := hl.2 o ho
  rw [hparent]
  refine ⟨⟨ro, hfound, ?_⟩, ?_⟩
  · rw [hlist]
    apply List.count_eq_one_of_mem _ (List.mem_map.mpr ⟨c, hc, rfl⟩)
    exact (List.nodup_flatMap.mp hn).1 o ho
  · intro j r' hj hmem
    obtain ⟨o', ho', rfl, hlist'⟩ := hl.1 j r' hj
    rw [hlist'] at hmem
    obtain ⟨c', hc', hid⟩ := List.mem_map.mp hmem
    rw [(eq_of_nodup_flatMap hn ho hc ho' hc' hid.symm).1]

end Catalog.Bucket
