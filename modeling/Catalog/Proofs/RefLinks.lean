import Catalog.Flat
import Catalog.Proofs.Flattening.Filed
import Catalog.Proofs.Integrity.Schemas
import Catalog.Proofs.RefLinks.Grounded
import Catalog.Proofs.RefLinks.Recorded

/-!
Refs in every reachable database. They connect two different sets of equally many fields, no two of
a schema the same ones, and each field knows the endpoints that include it.
-/
namespace Catalog

structure Database.Connected (db : Database) : Prop where
  proper : ∀ r ∈ db.refs, r.Proper db
  apart : ∀ s ∈ db.schemas, (s.refs.map (·.sides)).Nodup
  recorded : ∀ f ∈ db.fields, f.Recorded db

/-- A ref has two endpoints in the flat model, and they are those that name it as their ref. -/
structure Flat.Model.Endpointed (m : Flat.Model) : Prop where
  two : ∀ i r, m.refs.get? i = some r → r.endpointIds.length = 2 ∧ r.endpointIds.Nodup
  own : ∀ i r, m.refs.get? i = some r → ∀ j, j ∈ r.endpointIds ↔
    ∃ e, m.endpoints.get? j = some e ∧ e.refId = i

/-- A ref that fits connects what no other one of the schema does. -/
theorem Entity.Fits.sides {db : Database} {s : Schema} {e : Entity} (h : e.Fits db s)
    (hs : (s.refs.map (·.sides)).Nodup) : ((s.refs ++ e.refs).map (·.sides)).Nodup := by
  cases e with
  | ref r =>
    rw [List.map_append, List.nodup_append]
    refine ⟨hs, List.nodup_singleton _, ?_⟩
    intro x hx y hy hxy
    obtain ⟨other, hother, rfl⟩ := List.mem_map.mp hx
    obtain ⟨r', hr', rfl⟩ := List.mem_map.mp hy
    rw [List.mem_singleton.mp hr'] at hxy
    have hsame := Ref.connectsSame_of_sides hxy.symm
    rw [h.unmatched r rfl other hother] at hsame
    cases hsame
  | _ => simpa only [Entity.refs, List.append_nil] using hs

namespace Assembly

variable {m : Remit} {a b : Assembly}

/-- The refs of a schema are those that it had before, and at most one that fits. -/
theorem Numbered.refs_change (hn : a.Numbered) (h : Change m a b) {s' : Schema}
    (hs' : s' ∈ b.database.schemas) : s'.refs = [] ∨ ∃ s ∈ a.database.schemas,
      s'.refs = s.refs ∨ ∃ e : Entity, e.Fits a.database s ∧ s'.refs = s.refs ++ e.refs := by
  cases hn.yields h hs' with
  | empty => exact .inl rfl
  | same hs => exact .inr ⟨_, hs, .inl rfl⟩
  | grown hs _ hfits => exact .inr ⟨_, hs, .inr ⟨_, hfits, Schema.refs_insert _ _⟩⟩

theorem Sound.connected_change (hs : a.Sound) (ha : a.database.Connected) (h : Change m a b) :
    b.database.Connected where
  proper := by
    intro r hr
    obtain ⟨s', hs', hr⟩ := List.mem_flatMap.mp hr
    have hproper : r.Proper a.database := by
      rcases hs.numbered.refs_change h hs' with hnone | ⟨s, hmem, hsame | ⟨e, hfits, hnew⟩⟩
      · rw [hnone] at hr
        cases hr
      · exact ha.proper r (List.mem_flatMap.mpr ⟨s, hmem, hsame ▸ hr⟩)
      · rw [hnew] at hr
        rcases List.mem_append.mp hr with hr | hr
        · exact ha.proper r (List.mem_flatMap.mpr ⟨s, hmem, hr⟩)
        · cases e with
          | ref r' =>
            rw [List.mem_singleton.mp hr]
            exact Ref.ResolvedIn.proper hfits.linked
          | _ => cases hr
    exact hproper.mono h.register
  apart := by
    intro s' hs'
    rcases hs.numbered.refs_change h hs' with hnone | ⟨s, hmem, hsame | ⟨e, hfits, hnew⟩⟩
    · rw [hnone]
      exact .nil
    · rw [hsame]
      exact ha.apart s hmem
    · rw [hnew]
      exact hfits.sides (ha.apart s hmem)
  recorded := by
    obtain ⟨new, hnew⟩ := h.enlarges
    exact hnew.recorded hs ha.recorded

/-- Binding tags touches neither refs nor fields. -/
theorem Bound.connected (h : Bound a b) (ha : a.database.Connected) : b.database.Connected := by
  have hrefs : ∀ s' s : Schema, s'.Bound s → s'.refs = s.refs := fun s' s hs => by rw [hs.same]
  have hall : b.database.refs = a.database.refs := flatMap_eq_of_paired h.schemas hrefs
  have hends : b.database.endpoints = a.database.endpoints := by
    rw [Database.endpoints, hall, Database.endpoints]
  constructor
  · intro r hr
    rw [hall] at hr
    exact (ha.proper r hr).mono (h.register ▸ List.Subset.refl _)
  · intro s' hs'
    obtain ⟨s, hs, hbound⟩ := exists_right_of_paired h.schemas hs'
    rw [hrefs s' s hbound]
    exact ha.apart s hs
  · intro f hf
    rw [h.fields_eq] at hf
    obtain ⟨hascending, hexact⟩ := ha.recorded f hf
    refine ⟨hascending, ?_⟩
    rw [hends]
    exact hexact

theorem connected_start (c : Config) (project : DatabaseInfo) :
    (start c project).database.Connected where
  proper _ hr := absurd hr List.not_mem_nil
  apart _ hs := absurd hs List.not_mem_nil
  recorded _ hf := absurd hf List.not_mem_nil

end Assembly

/-- Endpoints are filed under the refs that hold them. -/
theorem Database.endpointed_normalize {db : Database} (hrefs : (db.arena .ref).Nodup)
    (hends : (db.arena .endpoint).Nodup) : db.normalize.Endpointed := by
  have found : ∀ i x, db.normalize.refs.get? i = some x →
      ∃ r ∈ db.refs, r.id = i ∧ x.endpointIds = r.endpoints.map (·.id) := by
    intro i x hx
    obtain ⟨s, hs, r, hr, rfl, rfl⟩ := (Bucket.get?_children hrefs).mp hx
    exact ⟨r, List.mem_flatMap.mpr ⟨s, hs, hr⟩, rfl, rfl⟩
  constructor
  · intro i x hx
    obtain ⟨r, hr, rfl, heq⟩ := found i x hx
    rw [heq]
    refine ⟨rfl, ?_⟩
    have hnodup : (db.refs.flatMap fun r => r.endpoints.map (·.id)).Nodup := by
      rw [← List.map_flatMap]
      exact hends
    exact (List.nodup_flatMap.mp hnodup).1 r hr
  · intro i x hx j
    obtain ⟨r, hr, rfl, heq⟩ := found i x hx
    rw [heq, List.mem_map]
    constructor
    · rintro ⟨e, he, rfl⟩
      exact ⟨e.flat r.id, (Bucket.get?_children hends).mpr ⟨r, hr, e, he, rfl, rfl⟩, rfl⟩
    · rintro ⟨y, hy, hid⟩
      obtain ⟨r', hr', e, he, rfl, rfl⟩ := (Bucket.get?_children hends).mp hy
      have hsame : r' = r := List.inj_on_of_nodup_map hrefs hr' hr hid
      exact ⟨e, hsame ▸ he, rfl⟩

namespace Assembly

variable {a : Assembly}

theorem Reachable.connected (h : a.Reachable) : a.database.Connected :=
  h.keep_sound connected_start (fun _ _ => Sound.connected_change)
    fun _ _ hs ha hab => (hs.bound hab).connected ha

/-- Whatever is built and whatever is done to it after that, refs are well-formed, and so are the
links between them and the fields. -/
theorem Reachable.connected_refs (h : a.Reachable) :
    a.database.Connected ∧ a.database.normalize.Endpointed := by
  have hconnected : a.Sound ∧ a.database.Connected := by
    apply h.keep (I := fun a => a.Sound ∧ a.database.Connected)
    · exact fun c project => ⟨sound_start c project, connected_start c project⟩
    · exact fun a b ha hab => ⟨ha.1.change hab, ha.1.connected_change ha.2 hab⟩
    · exact fun a b ha hab => ⟨ha.1.binds hab, (ha.1.bound hab).connected ha.2⟩
  exact ⟨hconnected.2, Database.endpointed_normalize (hconnected.1.nodup_arena .ref)
    (hconnected.1.nodup_arena .endpoint)⟩

end Assembly

/-- A ref whose endpoints have a field in common. -/
def Decl.Bundle.stops : Decl.Bundle where
  tables := [
    { name := "stops", fields := [.ofType "id" "int", .ofType "line" "int", .ofType "next" "int"] }]
  refs := [.between
    (.covering "stops" ["next", "line"] .many)
    (.covering "stops" ["id", "line"] .one)]

def Operation.linkStops (first second : List String) : Operation :=
  .pushRef ⟨1⟩ (.between (.covering "stops" first .many) (.covering "stops" second .one))

/-- A ref to the same fields is rejected, and the numbers that it took are passed over. -/
theorem Assembly.connected_stops : ∃ a, build .stops {} = .ok a ∧
    let a' := a.after (.linkStops ["line", "id"] ["line", "next"])
    let b := a'.after (.linkStops ["id"] ["next"])
    b.Reachable ∧ b.database.Connected ∧ b.database.normalize.Endpointed ∧
      b.database.fields.map (·.endpoints.map (·.toNat)) = [[2, 5], [1, 2], [1, 6]] := by
  have hbuilt : (build .stops {}).toOption.any (fun a =>
      let a' := a.after (.linkStops ["line", "id"] ["line", "next"])
      (a.database.schemas.any (·.id = ⟨1⟩) && a'.database.schemas.any (·.id = ⟨1⟩)) &&
        decide ((a'.after (.linkStops ["id"] ["next"])).database.fields.map
          (·.endpoints.map (·.toNat)) = [[2, 5], [1, 2], [1, 6]])) = true := by
    decide +kernel
  obtain ⟨a, ha, heval⟩ := exists_ok_of_any hbuilt
  dsimp only at heval
  rw [Bool.and_eq_true, Bool.and_eq_true, List.any_eq_true, List.any_eq_true] at heval
  obtain ⟨⟨⟨s, hs, hid⟩, s', hs', hid'⟩, hlinks⟩ := heval
  have hreach : ((a.after (.linkStops ["line", "id"] ["line", "next"])).after
      (.linkStops ["id"] ["next"])).Reachable :=
    .step (.step (.build ha) ⟨s, hs, of_decide_eq_true hid⟩) ⟨s', hs', of_decide_eq_true hid'⟩
  obtain ⟨hconnected, hended⟩ := hreach.connected_refs
  exact ⟨a, ha, hreach, hconnected, hended, of_decide_eq_true hlinks⟩

end Catalog
