import Catalog.Json.Record
import Catalog.Proofs.Json.Codecs

/-!
Records that are restored from the objects they are written as. Every part of a record looks for its
own fields among the members, wherever they stand, so a part is restored from any object that holds
what the part has written; where no two fields have one name, the parts do not get in each other's
way.
-/
namespace Catalog.Json

namespace Members

/-- What some fields have written is found under their names, and nothing under the names of those
that have been left out. -/
structure Hold (ms : Members) (names : List String) (kvs : List (String × Json)) : Prop where
  found : ∀ kv ∈ kvs, ∃ place n, ms.find? kv.1 0 = some (place, n) ∧ n.Says kv.2
  absent : ∀ name ∈ names, name ∉ kvs.map (·.1) → ms.find? name 0 = none

variable {ms : Members} {kvs : List (String × Json)}

theorem Say.find?_eq_none (h : ms.Say kvs) {name : String} (hname : name ∉ kvs.map (·.1))
    (place : Nat) : ms.find? name place = none := by
  induction kvs generalizing ms place with
  | nil =>
    cases h
    rfl
  | cons kv kvs ih =>
    cases h with
    | cons hkey _ h =>
      rw [List.map_cons, List.mem_cons, not_or] at hname
      simp only [find?, hkey.text, if_neg (Ne.symm hname.1), ih h hname.2]

theorem Say.exists_find? (h : ms.Say kvs) (hn : (kvs.map (·.1)).Nodup) (place : Nat) :
    ∀ kv ∈ kvs, ∃ i n, ms.find? kv.1 place = some (i, n) ∧ n.Says kv.2 := by
  induction kvs generalizing ms place with
  | nil => exact fun kv hkv => absurd hkv List.not_mem_nil
  | cons kv kvs ih =>
    cases h with
    | @cons key k n j ms _ hkey hsays h =>
      rw [List.map_cons, List.nodup_cons] at hn
      intro kv hmem
      rcases List.mem_cons.mp hmem with rfl | hkv
      · exact ⟨place, n, by simp only [find?, hkey.text, if_true], hsays⟩
      · have hne : k ≠ kv.1 := by
          rintro rfl
          exact hn.1 (List.mem_map.mpr ⟨kv, hkv, rfl⟩)
        simp only [find?, hkey.text, if_neg hne]
        exact ih h hn.2 (place + 1) kv hkv

theorem Say.hold (h : ms.Say kvs) (hn : (kvs.map (·.1)).Nodup) (names : List String) :
    ms.Hold names kvs where
  found := h.exists_find? hn 0
  absent _ _ hname := h.find?_eq_none hname 0

/-- Nothing is wrong with an object whose members have different keys. -/
theorem Say.problem?_eq_none (h : ms.Say kvs) (known : List String) (seen : List String)
    (hn : (kvs.map (·.1)).Nodup) (hseen : ∀ kv ∈ kvs, kv.1 ∉ seen) (place : Nat) :
    ms.problem? known seen place = none := by
  induction kvs generalizing ms seen place with
  | nil =>
    cases h
    rfl
  | cons kv kvs ih =>
    cases h with
    | @cons key k n j ms _ hkey _ h =>
      rw [List.map_cons, List.nodup_cons] at hn
      simp only [problem?, hkey.text, if_neg (hseen _ List.mem_cons_self)]
      apply ih h _ hn.2
      intro kv hkv hmem
      have hnew : kv.1 ∉ k :: seen := by
        rw [List.mem_cons, not_or]
        refine ⟨?_, hseen kv (List.mem_cons_of_mem _ hkv)⟩
        rintro rfl
        exact hn.1 (List.mem_map.mpr ⟨kv, hkv, rfl⟩)
      split at hmem
      · exact hnew hmem
      · exact hnew (List.mem_cons_of_mem _ hmem)

section Append

variable {names names' : List String} {kvs' : List (String × Json)}
  (h : ms.Hold (names ++ names') (kvs ++ kvs')) (hn : (names ++ names').Nodup)
include h hn

theorem Hold.left (hkeys' : kvs'.map (·.1) ⊆ names') : ms.Hold names kvs where
  found kv hkv := h.found kv (List.mem_append_left _ hkv)
  absent := by
    intro name hname hnot
    apply h.absent name (List.mem_append_left _ hname)
    rw [List.map_append, List.mem_append, not_or]
    exact ⟨hnot, fun hmem => (List.nodup_append.mp hn).2.2 name hname name (hkeys' hmem) rfl⟩

theorem Hold.right (hkeys : kvs.map (·.1) ⊆ names) : ms.Hold names' kvs' where
  found kv hkv := h.found kv (List.mem_append_right _ hkv)
  absent := by
    intro name hname hnot
    apply h.absent name (List.mem_append_right _ hname)
    rw [List.map_append, List.mem_append, not_or]
    exact ⟨fun hmem => (List.nodup_append.mp hn).2.2 name (hkeys hmem) name hname rfl, hnot⟩

end Append

end Members

namespace Record

variable {σ τ α β : Type}

/-- A part of a record is restored with the value given from what it writes of the record. -/
class Restores (r : Record σ α) (s : σ) (v : outParam α) : Prop where
  whole : ∀ kv ∈ r.encode s, kv.2.isWhole = true
  keys : ((r.encode s).map (·.1)).Sublist r.names
  ofMembers : ∀ {room : Nat} {ms : Members}, r.names.Nodup → ms.Hold r.names (r.encode s) →
    (∀ kv ∈ r.encode s, kv.2.depth ≤ room) → r.ofMembers room ms = .ok v

theorem Restores.of_eq {r : Record σ α} {s : σ} {v w : α} (h : r.Restores s v) (hvw : v = w) :
    r.Restores s w :=
  hvw ▸ h

/-! Fields. -/

section Fields

variable (name : String) (c : Codec α) {s : σ}

/-- A field may leave out of objects what stands for its absence. -/
theorem restores_field (get : σ → α) {missing : Option α} (short : Option α) {isOmitted : α → Bool}
    [h : c.Restores (get s)] (homit : isOmitted (get s) = true → missing = some (get s)) :
    (field name get c missing short isOmitted).Restores s (get s) := by
  by_cases hs : isOmitted (get s) = true
  · have hencode : (field name get c missing short isOmitted).encode s = [] := if_pos hs
    constructor
    · rw [hencode]
      exact fun kv hkv => absurd hkv List.not_mem_nil
    · rw [hencode]
      exact List.nil_sublist _
    · intro room ms _ hold _
      rw [hencode] at hold
      simp only [field, hold.absent name List.mem_cons_self List.not_mem_nil, homit hs]
  · have hencode : (field name get c missing short isOmitted).encode s
        = [(name, c.encode (get s))] := if_neg hs
    constructor
    · rw [hencode, List.forall_mem_singleton]
      exact h.whole
    · rw [hencode]
      exact List.Sublist.refl _
    · intro room ms _ hold hroom
      rw [hencode] at hold hroom
      obtain ⟨place, n, hfind, hsays⟩ := hold.found _ List.mem_cons_self
      have hdecode : c.decode room n = .ok (get s) := h.decode hsays (hroom _ List.mem_cons_self)
      simp only [field, hfind, hdecode]
      rfl

variable {get : σ → α} {getOption : σ → Option α}

instance [c.Restores (get s)] : (required name get c).Restores s (get s) :=
  restores_field name c get none nofun

instance [c.Restores (get s)] (value : α) : (defaulted name get c value).Restores s (get s) :=
  restores_field name c get (some value) nofun

instance [c.nullable.Restores (getOption s)] :
    (optional name getOption c).Restores s (getOption s) :=
  restores_field name c.nullable getOption (some none) fun h => by rw [Option.isNone_iff_eq_none.mp h]

instance [c.nullable.Restores (getOption s)] :
    (nullable name getOption c).Restores s (getOption s) :=
  restores_field name c.nullable getOption none nofun

end Fields

/-! Records put together. -/

instance {r : Record σ α} {s : σ} {v : α} (f : α → β) [h : r.Restores s v] :
    (f <$> r).Restores s (f v) where
  whole := h.whole
  keys := h.keys
  ofMembers := by
    intro room ms hn hold hroom
    change (r.ofMembers room ms).map f = .ok (f v)
    rw [h.ofMembers hn hold hroom]
    rfl

instance {f : Record σ (α → β)} {r : Record σ α} {s : σ} {g : α → β} {v : α} [hf : f.Restores s g]
    [hr : r.Restores s v] : (f <*> r).Restores s (g v) where
  whole := by
    intro kv hkv
    rcases List.mem_append.mp hkv with hkv | hkv
    · exact hf.whole kv hkv
    · exact hr.whole kv hkv
  keys := by
    change ((f.encode s ++ r.encode s).map (·.1)).Sublist (f.names ++ r.names)
    rw [List.map_append]
    exact hf.keys.append hr.keys
  ofMembers := by
    intro room ms hn hold hroom
    have hleft : f.ofMembers room ms = .ok g :=
      hf.ofMembers (List.nodup_append.mp hn).1 (hold.left hn hr.keys.subset)
        fun kv hkv => hroom kv (List.mem_append_left _ hkv)
    have hright : r.ofMembers room ms = .ok v :=
      hr.ofMembers (List.nodup_append.mp hn).2.1 (hold.right hn hf.keys.subset)
        fun kv hkv => hroom kv (List.mem_append_right _ hkv)
    change (f.ofMembers room ms).ap (r.ofMembers room ms) = .ok (g v)
    rw [hleft, hright]
    rfl

instance {r : Record σ α} {part : τ → σ} {t : τ} {v : α} [h : r.Restores (part t) v] :
    (r.within part).Restores t v where
  whole := h.whole
  keys := h.keys
  ofMembers := h.ofMembers

/-! Whole records. -/

instance (title : String) (r : Record α α) : (codec title r).Solid :=
  ⟨fun _ => nofun⟩

/-- A record with different names for its fields is restored if the value that its parts make up is
the record itself. -/
theorem restores_codec {title : String} {r : Record α α} {a v : α} [h : r.Restores a v]
    (hn : r.names.Nodup) (hv : v = a) : (codec title r).Restores a where
  whole := membersWhole_iff.mpr h.whole
  decode := by
    intro room n hsays hroom
    cases hsays with
    | @object ms _ hms =>
      obtain ⟨room, rfl⟩ : ∃ r, room = r + 1 := by
        simp only [codec, depth] at hroom
        exact ⟨room - 1, by omega⟩
      have hdepth := membersDepth_le_iff.mp (Nat.le_of_succ_le_succ hroom)
      have hkeys : ((r.encode a).map (·.1)).Nodup := h.keys.nodup hn
      have hproblem : ms.problem? r.names [] 0 = none :=
        hms.problem?_eq_none _ _ hkeys (fun _ _ => List.not_mem_nil) 0
      have hrecord : r.ofMembers room ms = .ok v := h.ofMembers hn (hms.hold hkeys _) hdepth
      change r.decodeMembers room ms = .ok a
      simp only [decodeMembers, hproblem, hrecord, hv]

end Record

end Catalog.Json
