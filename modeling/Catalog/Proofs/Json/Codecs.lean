import Catalog.Flat.Bucket.Codec
import Catalog.Proofs.Flattening.Filed
import Catalog.Proofs.Json.Reading
import Mathlib.Data.String.Basic

/-!
Codecs that restore what they have encoded: from a node that says what a value is encoded as, and
with room for its nesting, the value is decoded. A codec that is put together from others does so
where they do.
-/
namespace Catalog.Json

/-- A value is decoded from any node that says what it is encoded as. -/
class Codec.Restores {α : Type} (c : Codec α) (a : α) : Prop where
  whole : (c.encode a).isWhole = true
  decode : ∀ {room : Nat} {n : Node}, n.Says (c.encode a) → (c.encode a).depth ≤ room →
    c.decode room n = .ok a

/-- No value is encoded as null. -/
class Codec.Solid {α : Type} (c : Codec α) : Prop where
  ne_null : ∀ a, c.encode a ≠ .null

theorem Node.Says.eq_null {j : Json} (h : Node.Says .null j) : j = .null := by
  cases h
  rfl

/-! Parts of arrays and objects. -/

theorem itemsWhole_iff {js : List Json} : itemsWhole js = true ↔ ∀ j ∈ js, j.isWhole = true := by
  induction js with
  | nil => simp [itemsWhole]
  | cons j js ih => simp [itemsWhole, ih]

theorem itemsDepth_le_iff {js : List Json} {room : Nat} :
    itemsDepth js ≤ room ↔ ∀ j ∈ js, j.depth ≤ room := by
  induction js with
  | nil => simp [itemsDepth]
  | cons j js ih => simp [itemsDepth, ih]

theorem membersWhole_iff {kvs : List (String × Json)} :
    membersWhole kvs = true ↔ ∀ kv ∈ kvs, kv.2.isWhole = true := by
  induction kvs with
  | nil => simp [membersWhole]
  | cons kv kvs ih => simp [membersWhole, ih]

theorem membersDepth_le_iff {kvs : List (String × Json)} {room : Nat} :
    membersDepth kvs ≤ room ↔ ∀ kv ∈ kvs, kv.2.depth ≤ room := by
  induction kvs with
  | nil => simp [membersDepth]
  | cons kv kvs ih => simp [membersDepth, ih]

namespace Codec

variable {α : Type} {c : Codec α}

/-! Plain values. -/

instance (s : String) : string.Restores s where
  whole := rfl
  decode := by
    rintro room n ⟨⟩ -
    rfl

instance : string.Solid :=
  ⟨fun _ => nofun⟩

instance (b : Bool) : bool.Restores b where
  whole := rfl
  decode := by
    rintro room n ⟨⟩ -
    rfl

instance : bool.Solid :=
  ⟨fun _ => nofun⟩

theorem decodeNat_of_node {n : Node} {bound v : Nat} {expected : String}
    (h : n.Says (.ofNat v)) (hv : v < bound) : decodeNat bound expected n = .ok v := by
  cases h with
  | number hvalue =>
    simp only [decodeNat, hvalue]
    rw [if_pos ⟨Int.natCast_nonneg v, by simpa using hv⟩]
    rfl

theorem isWhole_ofNat {v : Nat} (hv : v < UInt64.size) : (Json.ofNat v).isWhole = true := by
  have hmin : Int64.minValue.toInt ≤ 0 := by decide
  simp only [ofNat, isWhole, Bool.and_eq_true, decide_eq_true_eq]
  omega

instance (v : UInt32) : uint32.Restores v where
  whole := isWhole_ofNat (Nat.lt_trans v.toNat_lt (by decide))
  decode := by
    intro room n hn _
    change (decodeNat UInt32.size "u32" n).map UInt32.ofNat = .ok v
    rw [decodeNat_of_node hn v.toNat_lt]
    exact congrArg Except.ok UInt32.ofNat_toNat

instance (v : UInt64) : uint64.Restores v where
  whole := isWhole_ofNat v.toNat_lt
  decode := by
    intro room n hn _
    change (decodeNat UInt64.size "usize" n).map UInt64.ofNat = .ok v
    rw [decodeNat_of_node hn v.toNat_lt]
    exact congrArg Except.ok UInt64.ofNat_toNat

instance {k : Kind} (i : Id k) : identifier.Restores i where
  whole := Restores.whole (c := uint32) (a := i.val)
  decode := by
    intro room n hn hroom
    change (uint32.decode room n).map Id.mk = .ok i
    rw [Restores.decode (c := uint32) (a := i.val) hn hroom]
    rfl

instance {k : Kind} : (identifier (k := k)).Solid :=
  ⟨fun _ => nofun⟩

/-- A choice is restored where its name stands for it. -/
theorem restores_choice {choices : List (String × α)} {name : α → String} {a : α}
    (h : choices.lookup (name a) = some a) : (choice choices name).Restores a where
  whole := rfl
  decode := by
    rintro room n ⟨⟩ -
    simp only [choice, choose, h]

/-! Optional values and lists. -/

theorem nullable_decode {room : Nat} {n : Node} (hn : n ≠ .null) :
    c.nullable.decode room n = (c.decode room n).map some := by
  cases n with
  | null => exact absurd rfl hn
  | _ => rfl

instance {o : Option α} [c.Solid] [h : ∀ a : { a // a ∈ o }, c.Restores a.val] :
    c.nullable.Restores o where
  whole := by
    cases o with
    | none => rfl
    | some a => exact (h ⟨a, rfl⟩).whole
  decode := by
    intro room n hn hroom
    cases o with
    | none =>
      cases hn
      rfl
    | some a =>
      have hdecode : c.decode room n = .ok a := (h ⟨a, rfl⟩).decode hn hroom
      have hnull : n ≠ .null := by
        rintro rfl
        have heq : c.encode a = .null := Node.Says.eq_null hn
        exact Solid.ne_null a heq
      rw [nullable_decode hnull, hdecode]
      rfl

theorem decodeItems_of_say {decode : Node → Decoded α} {encode : α → Json} {as : List α}
    {is : Items} (h : is.Say (as.map encode))
    (has : ∀ a ∈ as, ∀ n, Node.Says n (encode a) → decode n = .ok a) :
    decodeItems decode is = .ok as := by
  induction as generalizing is with
  | nil =>
    cases h
    rfl
  | cons a as ih =>
    cases h with
    | cons hn h =>
      rw [decodeItems, has a List.mem_cons_self _ hn,
        ih h fun a ha => has a (List.mem_cons_of_mem _ ha)]
      rfl

instance {as : List α} [h : ∀ a : { a // a ∈ as }, c.Restores a.val] : (list c).Restores as where
  whole := by
    apply itemsWhole_iff.mpr
    intro j hj
    obtain ⟨a, ha, rfl⟩ := List.mem_map.mp hj
    exact (h ⟨a, ha⟩).whole
  decode := by
    intro room n hn hroom
    cases hn with
    | array his =>
      obtain ⟨room, rfl⟩ : ∃ r, room = r + 1 := by
        simp only [list, depth] at hroom
        exact ⟨room - 1, by omega⟩
      have hitems : ∀ j ∈ as.map c.encode, j.depth ≤ room :=
        itemsDepth_le_iff.mp (Nat.le_of_succ_le_succ hroom)
      apply decodeItems_of_say his
      intro a ha n hn
      exact (h ⟨a, ha⟩).decode hn (hitems _ (List.mem_map.mpr ⟨a, ha, rfl⟩))

/-! Buckets. -/

theorem decodeKey_of_spells {k : Kind} {key : Key} {i : Id k} (h : key.Spells (toString i)) :
    decodeKey key = .ok i := by
  obtain ⟨hnumeral, hend⟩ := h.numeral i.toNat rfl
  have hmin : Int64.minValue.toInt ≤ 0 := by decide
  have hlt : i.toNat < UInt64.size := Nat.lt_trans i.toNat_lt (by decide)
  have hvalue := Numeral.value?_ofDigits (i := i.toNat) (by omega) (Int.ofNat_lt.mpr hlt)
  rw [decide_eq_false (by omega), Int.natAbs_natCast] at hvalue
  have hsays : (Node.number (.ok (.ofDigits false i.toNat))).Says (.ofNat i.toNat) := .number hvalue
  simp only [decodeKey, hnumeral, hend, if_true, Except.mapError, bind, Except.bind,
    decodeNat_of_node hsays i.toNat_lt]
  exact congrArg (Except.ok ∘ Id.mk) UInt32.ofNat_toNat

theorem decodeEntries_of_say {k : Kind} {decode : Node → Decoded α} {encode : α → Json}
    {es : List (Id k × α)} {ms : Members}
    (h : ms.Say (es.map fun e => (toString e.1, encode e.2)))
    (hes : ∀ e ∈ es, ∀ n, Node.Says n (encode e.2) → decode n = .ok e.2) :
    decodeEntries decode ms = .ok es := by
  induction es generalizing ms with
  | nil =>
    cases h
    rfl
  | cons e es ih =>
    cases h with
    | cons hkey hn h =>
      rw [decodeEntries, decodeKey_of_spells hkey, hes e List.mem_cons_self _ hn,
        ih h fun e he => hes e (List.mem_cons_of_mem _ he)]
      rfl

instance {k : Kind} {b : Bucket k α} [h : ∀ e : { e // e ∈ b.entries }, c.Restores e.val.2] :
    (bucket c).Restores b where
  whole := by
    apply membersWhole_iff.mpr
    intro kv hkv
    obtain ⟨e, he, rfl⟩ := List.mem_map.mp hkv
    exact (h ⟨e, he⟩).whole
  decode := by
    intro room n hn hroom
    cases hn with
    | @object ms _ hms =>
      obtain ⟨room, rfl⟩ : ∃ r, room = r + 1 := by
        simp only [bucket, depth] at hroom
        exact ⟨room - 1, by omega⟩
      have hmembers := membersDepth_le_iff.mp (Nat.le_of_succ_le_succ hroom)
      have hes : decodeEntries (c.decode room) ms = .ok b.entries := by
        apply decodeEntries_of_say hms
        intro e he n hn
        exact (h ⟨e, he⟩).decode hn (hmembers _ (List.mem_map.mpr ⟨e, he, rfl⟩))
      change (decodeEntries (c.decode room) ms).map Bucket.ofList = .ok b
      rw [hes]
      exact congrArg Except.ok b.ofList_entries

end Codec

/-! Any values. -/

mutual

/-- Objects have their keys in ascending order, so each of them at most once. -/
def isSorted : Json → Bool
  | .array items => itemsSorted items
  | .object members => membersSorted members
  | _ => true

def itemsSorted : List Json → Bool
  | [] => true
  | j :: js => j.isSorted && itemsSorted js

def membersSorted : List (String × Json) → Bool
  | [] => true
  | (k, j) :: ms => j.isSorted && ms.all (k < ·.1) && membersSorted ms

end

theorem insertMember_append {k : String} {j : Json} {kvs : List (String × Json)}
    (h : ∀ kv ∈ kvs, kv.1 < k) : insertMember k j kvs = kvs ++ [(k, j)] := by
  induction kvs with
  | nil => rfl
  | cons kv kvs ih =>
    obtain ⟨k', v⟩ := kv
    have hlt : k' < k := h _ List.mem_cons_self
    have hne : k ≠ k' := by
      rintro rfl
      exact String.lt_irrefl k hlt
    rw [insertMember, if_neg (String.lt_asymm hlt), if_neg hne,
      ih fun kv hkv => h kv (List.mem_cons_of_mem _ hkv)]
    rfl

mutual

theorem decodeAny_of_node {j : Json} (hj : j.isSorted = true) {room : Nat} {n : Node}
    (hn : n.Says j) (hroom : j.depth ≤ room) : Codec.decodeAny room n = .ok j := by
  cases hn with
  | null | bool | string => rfl
  | number hvalue => simp only [Codec.decodeAny, hvalue]
  | array his =>
    obtain ⟨room, rfl⟩ : ∃ r, room = r + 1 := by
      simp only [depth] at hroom
      exact ⟨room - 1, by omega⟩
    rw [Codec.decodeAny, decodeAnyItems_of_say hj his (Nat.le_of_succ_le_succ hroom)]
    rfl
  | object hms =>
    obtain ⟨room, rfl⟩ : ∃ r, room = r + 1 := by
      simp only [depth] at hroom
      exact ⟨room - 1, by omega⟩
    rw [Codec.decodeAny, decodeAnyMembers_of_say hj hms (Nat.le_of_succ_le_succ hroom) []
      fun _ hd => absurd hd List.not_mem_nil]
    rfl

theorem decodeAnyItems_of_say {js : List Json} (hjs : itemsSorted js = true) {room : Nat}
    {is : Items} (his : is.Say js) (hroom : itemsDepth js ≤ room) :
    Codec.decodeAnyItems room is = .ok js := by
  cases his with
  | nil => rfl
  | cons hn his =>
    simp only [itemsSorted, Bool.and_eq_true] at hjs
    simp only [itemsDepth, Nat.max_le] at hroom
    rw [Codec.decodeAnyItems, decodeAny_of_node hjs.1 hn hroom.1,
      decodeAnyItems_of_say hjs.2 his hroom.2]
    rfl

theorem decodeAnyMembers_of_say {kvs : List (String × Json)} (hkvs : membersSorted kvs = true)
    {room : Nat} {ms : Members} (hms : ms.Say kvs) (hroom : membersDepth kvs ≤ room)
    (done : List (String × Json)) (hdone : ∀ d ∈ done, ∀ kv ∈ kvs, d.1 < kv.1) :
    Codec.decodeAnyMembers room done ms = .ok (done ++ kvs) := by
  cases hms with
  | nil =>
    rw [List.append_nil]
    rfl
  | @cons key k n j ms kvs hkey hn hms =>
    simp only [membersSorted, Bool.and_eq_true, List.all_eq_true, decide_eq_true_eq] at hkvs
    simp only [membersDepth, Nat.max_le] at hroom
    have hlater : ∀ d ∈ done ++ [(k, j)], ∀ kv ∈ kvs, d.1 < kv.1 := by
      intro d hd kv hkv
      rcases List.mem_append.mp hd with hd | hd
      · exact hdone d hd kv (List.mem_cons_of_mem _ hkv)
      · rw [List.mem_singleton.mp hd]
        exact hkvs.1.2 kv hkv
    rw [Codec.decodeAnyMembers, hkey.text, decodeAny_of_node hkvs.1.1 hn hroom.1]
    dsimp only [bind, Except.bind]
    rw [insertMember_append fun d hd => hdone d hd (k, j) List.mem_cons_self,
      decodeAnyMembers_of_say hkvs.2 hms hroom.2 _ hlater, List.append_assoc]
    rfl

end

/-- All numbers are whole and have at most 64 bits, signed or unsigned, and the members of objects
stand in the order in which they are held. -/
structure IsPlain (j : Json) : Prop where
  whole : j.isWhole = true
  sorted : j.isSorted = true

instance (j : Json) : Decidable j.IsPlain :=
  decidable_of_iff (j.isWhole = true ∧ j.isSorted = true)
    ⟨fun h => ⟨h.1, h.2⟩, fun h => ⟨h.whole, h.sorted⟩⟩

theorem IsPlain.restores {j : Json} (h : j.IsPlain) : Codec.any.Restores j where
  whole := h.whole
  decode := by
    intro room n hn hroom
    change (Codec.decodeAny room n).mapError Fault.flaw = .ok j
    rw [decodeAny_of_node h.sorted hn hroom]
    rfl

end Catalog.Json
