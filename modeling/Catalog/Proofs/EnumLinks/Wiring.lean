import Catalog.Database.Update
import Mathlib.Data.List.Nodup

/-!
The wiring of enums: what is left of a database without the entities that enums have no part in.
Which enums are linked to which fields is told by places, and the links are followed through the
additions that construction makes.
-/
namespace Catalog

/-- Where a table or an enum stands: the position of its schema, and its own one in the schema. -/
structure Place where
  schema : Nat
  item : Nat
  deriving DecidableEq, Repr

/-- A schema as far as enums and the types of fields go. -/
structure Wiring where
  name : String
  /-- The fields of each table, without their endpoints. -/
  tables : List (List Field) := []
  enums : List Enum := []

/-- A field without its endpoints. -/
def Field.wiring (f : Field) : Field :=
  { f with endpoints := [] }

def Table.wiring (t : Table) : List Field :=
  t.fields.map (·.wiring)

def Schema.wiring (s : Schema) : Wiring where
  name := s.name
  tables := s.tables.map (·.wiring)
  enums := s.enums

def Database.wiring (db : Database) : List Wiring :=
  db.schemas.map (·.wiring)

theorem flatMap_modify {α β : Type} {f : α → α} {g : α → List β} (hf : ∀ a, g (f a) = g a)
    (l : List α) (i : Nat) : (l.modify i f).flatMap g = l.flatMap g := by
  induction l generalizing i with
  | nil => rw [List.modify_nil]
  | cons a l ih =>
    cases i with
    | zero => rw [List.modify_zero_cons, List.flatMap_cons, List.flatMap_cons, hf]
    | succ i => rw [List.modify_succ_cons, List.flatMap_cons, List.flatMap_cons, ih]

theorem getElem?_modify_eq_some {α : Type} {f : α → α} {l : List α} {i j : Nat} {b : α} :
    (l.modify i f)[j]? = some b ↔ ∃ a, l[j]? = some a ∧ b = if i = j then f a else a := by
  rw [List.getElem?_modify, Option.map_eq_map, Option.map_eq_some_iff]
  constructor
  · rintro ⟨a, ha, rfl⟩
    exact ⟨a, ha, rfl⟩
  · rintro ⟨a, ha, rfl⟩
    exact ⟨a, ha, rfl⟩

theorem getElem?_append_singleton_eq_some {α : Type} {l : List α} {a b : α} {j : Nat} :
    (l ++ [a])[j]? = some b ↔ l[j]? = some b ∨ j = l.length ∧ b = a := by
  rw [List.getElem?_append]
  split
  · rename_i hlt
    have hne : j ≠ l.length := Nat.ne_of_lt hlt
    simp [hne]
  · rename_i hge
    have hnone : l[j]? = none := List.getElem?_eq_none (Nat.le_of_not_lt hge)
    rw [hnone, List.getElem?_singleton]
    split
    · have heq : j = l.length := by omega
      simp [heq, eq_comm]
    · have hne : j ≠ l.length := by omega
      simp [hne]

namespace Wiring

/-- The fields of all tables, in the order of the tree. -/
def fields (ws : List Wiring) : List Field :=
  ws.flatMap (·.tables.flatten)

def HasField (ws : List Wiring) (p : Place) (f : Field) : Prop :=
  ∃ w fs, ws[p.schema]? = some w ∧ w.tables[p.item]? = some fs ∧ f ∈ fs

/-- An enum stands at a place, in the schema with some name. -/
def HasEnum (ws : List Wiring) (q : Place) (schema : String) (e : Enum) : Prop :=
  ∃ w, ws[q.schema]? = some w ∧ w.name = schema ∧ w.enums[q.item]? = some e

/-- Fields and enums can be told apart. -/
structure Told (ws : List Wiring) : Prop where
  fields : ((fields ws).map (·.id)).Nodup
  ids : ∀ {q q' n n' e e'}, HasEnum ws q n e → HasEnum ws q' n' e' → e.id = e'.id →
    n = n' ∧ e.name = e'.name
  names : ∀ {q q' n n' e e'}, HasEnum ws q n e → HasEnum ws q' n' e' → n = n' →
    e.name = e'.name → e.id = e'.id

/-- The links of fields are to the enums that are their types, where a further condition is met, and
each enum collects the fields that are linked to it. -/
structure Links (d : String) (P : Place → Place → Id .enum → Prop) (ws : List Wiring) : Prop where
  link : ∀ {p q f n e}, HasField ws p f → HasEnum ws q n e →
    (f.enumId = some e.id ↔ f.isOfEnum d n e.name = true ∧ P p q e.id)
  fields : ∀ {q n e}, HasEnum ws q n e →
    e.fields = ((fields ws).filter (·.enumId = some e.id)).map (·.id)

/-! Additions. -/

def addTable (i : Nat) (fs : List Field) (ws : List Wiring) : List Wiring :=
  ws.modify i fun w => { w with tables := w.tables ++ [fs] }

def addEnum (i : Nat) (e : Enum) (ws : List Wiring) : List Wiring :=
  ws.modify i fun w => { w with enums := w.enums ++ [e] }

/-- Links the fields that pass a test to an enum. -/
def bindField (m : Field → Bool) (i : Id .enum) (f : Field) : Field :=
  if m f then { f with enumId := some i } else f

def bindEnum (ids : List (Id .field)) (i : Id .enum) (e : Enum) : Enum :=
  if e.id = i then { e with fields := ids.foldl pushNew e.fields } else e

def bindSchema (m : Field → Bool) (ids : List (Id .field)) (i : Id .enum) (w : Wiring) :
    Wiring where
  name := w.name
  tables := w.tables.map (·.map (bindField m i))
  enums := w.enums.map (bindEnum ids i)

def bind (m : Field → Bool) (i : Id .enum) (ws : List Wiring) : List Wiring :=
  ws.map (bindSchema m (((fields ws).filter m).map (·.id)) i)

variable {ws : List Wiring} {p q : Place} {f : Field} {n : String} {e : Enum}

theorem mem_fields : f ∈ fields ws ↔ ∃ p, HasField ws p f := by
  unfold fields
  rw [List.mem_flatMap]
  constructor
  · rintro ⟨w, hw, hf⟩
    obtain ⟨fs, hfs, hf⟩ := List.mem_flatten.mp hf
    obtain ⟨i, hi⟩ := List.mem_iff_getElem?.mp hw
    obtain ⟨j, hj⟩ := List.mem_iff_getElem?.mp hfs
    exact ⟨⟨i, j⟩, w, fs, hi, hj, hf⟩
  · rintro ⟨p, w, fs, hw, hfs, hf⟩
    exact ⟨w, List.mem_of_getElem? hw, List.mem_flatten.mpr ⟨fs, List.mem_of_getElem? hfs, hf⟩⟩

theorem hasField_addSchema {name : String}
    (h : HasField (ws ++ [({ name } : Wiring)]) p f) : HasField ws p f := by
  obtain ⟨w, fs, hw, hfs, hf⟩ := h
  rcases getElem?_append_singleton_eq_some.mp hw with hw | ⟨-, rfl⟩
  · exact ⟨w, fs, hw, hfs, hf⟩
  · cases hfs

theorem hasEnum_addSchema {name : String} (h : HasEnum (ws ++ [({ name } : Wiring)]) q n e) :
    HasEnum ws q n e := by
  obtain ⟨w, hw, hname, he⟩ := h
  rcases getElem?_append_singleton_eq_some.mp hw with hw | ⟨-, rfl⟩
  · exact ⟨w, hw, hname, he⟩
  · cases he

theorem hasField_addTable {i : Nat} {fs : List Field} (h : HasField (addTable i fs ws) p f) :
    HasField ws p f ∨ f ∈ fs ∧ ∃ w, ws[i]? = some w ∧ p = ⟨i, w.tables.length⟩ := by
  obtain ⟨w', fs', hw', hfs', hf⟩ := h
  obtain ⟨w, hw, rfl⟩ := getElem?_modify_eq_some.mp hw'
  split at hfs'
  · rename_i hi
    subst hi
    rcases getElem?_append_singleton_eq_some.mp hfs' with hold | ⟨hitem, rfl⟩
    · exact .inl ⟨w, fs', hw, hold, hf⟩
    · exact .inr ⟨hf, w, hw, by rw [← hitem]⟩
  · exact .inl ⟨w, fs', hw, hfs', hf⟩

theorem hasEnum_addTable {i : Nat} {fs : List Field} (h : HasEnum (addTable i fs ws) q n e) :
    HasEnum ws q n e := by
  obtain ⟨w', hw', hname, he⟩ := h
  obtain ⟨w, hw, rfl⟩ := getElem?_modify_eq_some.mp hw'
  refine ⟨w, hw, ?_⟩
  split at hname <;> exact ⟨hname, by split at he <;> exact he⟩

theorem hasField_addEnum {i : Nat} {e : Enum} (h : HasField (addEnum i e ws) p f) :
    HasField ws p f := by
  obtain ⟨w', fs, hw', hfs, hf⟩ := h
  obtain ⟨w, hw, rfl⟩ := getElem?_modify_eq_some.mp hw'
  refine ⟨w, fs, hw, ?_, hf⟩
  split at hfs <;> exact hfs

theorem hasEnum_addEnum {i : Nat} {e' : Enum} (h : HasEnum (addEnum i e' ws) q n e) :
    HasEnum ws q n e ∨ e = e' ∧ ∃ w, ws[i]? = some w ∧ q = ⟨i, w.enums.length⟩ := by
  obtain ⟨w', hw', hname, he⟩ := h
  obtain ⟨w, hw, rfl⟩ := getElem?_modify_eq_some.mp hw'
  split at he
  · rename_i hi
    subst hi
    rw [if_pos rfl] at hname
    rcases getElem?_append_singleton_eq_some.mp he with hold | ⟨hitem, rfl⟩
    · exact .inl ⟨w, hw, hname, hold⟩
    · exact .inr ⟨rfl, w, hw, by rw [← hitem]⟩
  · rename_i hi
    rw [if_neg hi] at hname
    exact .inl ⟨w, hw, hname, he⟩

theorem hasEnum_addEnum_self {i : Nat} {w : Wiring} (hw : ws[i]? = some w) (e : Enum) :
    HasEnum (addEnum i e ws) ⟨i, w.enums.length⟩ w.name e := by
  refine ⟨{ w with enums := w.enums ++ [e] }, ?_, rfl, List.getElem?_concat_length⟩
  exact getElem?_modify_eq_some.mpr ⟨w, hw, (if_pos rfl).symm⟩

theorem hasField_bind {m : Field → Bool} {i : Id .enum} (h : HasField (bind m i ws) p f) :
    ∃ f', HasField ws p f' ∧ f = bindField m i f' := by
  obtain ⟨w', fs', hw', hfs', hf⟩ := h
  rw [bind, List.getElem?_map, Option.map_eq_some_iff] at hw'
  obtain ⟨w, hw, rfl⟩ := hw'
  rw [bindSchema, List.getElem?_map, Option.map_eq_some_iff] at hfs'
  obtain ⟨fs, hfs, rfl⟩ := hfs'
  obtain ⟨f', hf', rfl⟩ := List.mem_map.mp hf
  exact ⟨f', ⟨w, fs, hw, hfs, hf'⟩, rfl⟩

theorem hasEnum_bind_iff {m : Field → Bool} {i : Id .enum} : HasEnum (bind m i ws) q n e ↔
    ∃ e', HasEnum ws q n e' ∧ e = bindEnum (((fields ws).filter m).map (·.id)) i e' := by
  constructor
  · rintro ⟨w', hw', hname, he⟩
    rw [bind, List.getElem?_map, Option.map_eq_some_iff] at hw'
    obtain ⟨w, hw, rfl⟩ := hw'
    rw [bindSchema, List.getElem?_map, Option.map_eq_some_iff] at he
    obtain ⟨e', he', rfl⟩ := he
    exact ⟨e', ⟨w, hw, hname, he'⟩, rfl⟩
  · rintro ⟨e', ⟨w, hw, hname, he'⟩, rfl⟩
    refine ⟨bindSchema m (((fields ws).filter m).map (·.id)) i w, ?_, hname, ?_⟩
    · rw [bind, List.getElem?_map, hw]
      rfl
    · rw [bindSchema, List.getElem?_map, he']
      rfl

@[simp] theorem bindField_id (m : Field → Bool) (i : Id .enum) (f : Field) :
    (bindField m i f).id = f.id := by
  unfold bindField
  split <;> rfl

@[simp] theorem bindField_info (m : Field → Bool) (i : Id .enum) (f : Field) :
    (bindField m i f).toFieldInfo = f.toFieldInfo := by
  unfold bindField
  split <;> rfl

@[simp] theorem bindEnum_id (ids : List (Id .field)) (i : Id .enum) (e : Enum) :
    (bindEnum ids i e).id = e.id := by
  unfold bindEnum
  split <;> rfl

@[simp] theorem bindEnum_info (ids : List (Id .field)) (i : Id .enum) (e : Enum) :
    (bindEnum ids i e).toEnumInfo = e.toEnumInfo := by
  unfold bindEnum
  split <;> rfl

theorem fields_addEnum (i : Nat) (e : Enum) (ws : List Wiring) :
    fields (addEnum i e ws) = fields ws := by
  unfold fields addEnum
  apply flatMap_modify
  exact fun _ => rfl

theorem filter_fields_addTable {t : Field → Bool} {fs : List Field} (h : ∀ f ∈ fs, t f = false)
    (i : Nat) (ws : List Wiring) :
    (fields (addTable i fs ws)).filter t = (fields ws).filter t := by
  have hnone : fs.filter t = [] := by
    rw [List.filter_eq_nil_iff]
    exact fun f hf => Bool.not_eq_true _ ▸ h f hf
  rw [fields, fields, List.filter_flatMap, List.filter_flatMap]
  apply flatMap_modify
  intro w
  simp [List.filter_append, hnone]

theorem fields_bind (m : Field → Bool) (i : Id .enum) (ws : List Wiring) :
    fields (bind m i ws) = (fields ws).map (bindField m i) := by
  simp only [fields, bind, bindSchema, List.flatMap_map, List.map_flatMap, List.map_flatten]

/-- Binding takes nothing from what can be told apart. -/
theorem told_of_bind {m : Field → Bool} {i : Id .enum} (h : Told (bind m i ws)) : Told ws where
  fields := by
    have hids := h.fields
    rw [fields_bind, List.map_map] at hids
    simpa [Function.comp_def] using hids
  ids := by
    intro q q' n n' e e' he he' hid
    simpa using h.ids (hasEnum_bind_iff.mpr ⟨e, he, rfl⟩) (hasEnum_bind_iff.mpr ⟨e', he', rfl⟩)
      (by simpa using hid)
  names := by
    intro q q' n n' e e' he he' hn hname
    simpa using h.names (hasEnum_bind_iff.mpr ⟨e, he, rfl⟩) (hasEnum_bind_iff.mpr ⟨e', he', rfl⟩)
      hn (by simpa using hname)

/-! Additions never make a schema smaller. -/

structure Grows (ws ws' : List Wiring) : Prop where
  length : ws.length ≤ ws'.length
  sizes : ∀ i w', ws'[i]? = some w' → ws.length ≤ i ∨
    ∃ w, ws[i]? = some w ∧ w.tables.length ≤ w'.tables.length ∧ w.enums.length ≤ w'.enums.length

theorem Grows.refl (ws : List Wiring) : Grows ws ws :=
  ⟨Nat.le_refl _, fun _ w hw => .inr ⟨w, hw, Nat.le_refl _, Nat.le_refl _⟩⟩

theorem grows_addSchema (ws : List Wiring) (w : Wiring) : Grows ws (ws ++ [w]) where
  length := by
    rw [List.length_append]
    exact Nat.le_add_right _ _
  sizes := by
    intro i w' hw'
    rcases getElem?_append_singleton_eq_some.mp hw' with hw' | ⟨rfl, -⟩
    · exact .inr ⟨w', hw', Nat.le_refl _, Nat.le_refl _⟩
    · exact .inl (Nat.le_refl _)

theorem grows_modify {g : Wiring → Wiring}
    (hg : ∀ w, w.tables.length ≤ (g w).tables.length ∧ w.enums.length ≤ (g w).enums.length)
    (ws : List Wiring) (i : Nat) : Grows ws (ws.modify i g) where
  length := Nat.le_of_eq (List.length_modify ..).symm
  sizes := by
    intro j w' hw'
    obtain ⟨w, hw, rfl⟩ := getElem?_modify_eq_some.mp hw'
    refine .inr ⟨w, hw, ?_⟩
    split
    · exact hg w
    · exact ⟨Nat.le_refl _, Nat.le_refl _⟩

theorem grows_addTable (i : Nat) (fs : List Field) (ws : List Wiring) :
    Grows ws (addTable i fs ws) := by
  apply grows_modify
  simp

theorem grows_addEnum (i : Nat) (e : Enum) (ws : List Wiring) : Grows ws (addEnum i e ws) := by
  apply grows_modify
  simp

theorem Grows.bind {ws' : List Wiring} (h : Grows ws ws') (m : Field → Bool) (i : Id .enum) :
    Grows ws (bind m i ws') where
  length := by
    rw [Wiring.bind, List.length_map]
    exact h.length
  sizes := by
    intro j w'' hw''
    rw [Wiring.bind, List.getElem?_map, Option.map_eq_some_iff] at hw''
    obtain ⟨w', hw', rfl⟩ := hw''
    simp only [bindSchema, List.length_map]
    exact h.sizes j w' hw'

/-! What the additions make of the links. -/

namespace Links

variable {d : String} {P Q : Place → Place → Id .enum → Prop}

theorem congr (h : Links d P ws) (hPQ : ∀ {p q f n e}, HasField ws p f → HasEnum ws q n e →
    (P p q e.id ↔ Q p q e.id)) : Links d Q ws where
  link hf he := by rw [h.link hf he, hPQ hf he]
  fields := h.fields

theorem addSchema (h : Links d P ws) (name : String) :
    Links d P (ws ++ [({ name } : Wiring)]) := by
  have hfields : Wiring.fields (ws ++ [({ name } : Wiring)]) = Wiring.fields ws := by
    simp [Wiring.fields]
  exact {
    link := fun hf he => h.link (hasField_addSchema hf) (hasEnum_addSchema he)
    fields := fun he => by rw [hfields, h.fields (hasEnum_addSchema he)] }

/-- A table without links comes after the enums that its fields are not to be linked to. -/
theorem addTable (h : Links d P ws) {i : Nat} {fs : List Field} (hfs : ∀ f ∈ fs, f.enumId = none)
    (hP : ∀ {w q n e}, ws[i]? = some w → HasEnum ws q n e → ¬ P ⟨i, w.tables.length⟩ q e.id) :
    Links d P (addTable i fs ws) where
  link := by
    intro p q f n e hf he
    have he := hasEnum_addTable he
    rcases hasField_addTable hf with hf | ⟨hnew, w, hw, rfl⟩
    · exact h.link hf he
    · rw [hfs f hnew]
      constructor
      · intro hnone
        cases hnone
      · exact fun hboth => absurd hboth.2 (hP hw he)
  fields := by
    intro q n e he
    rw [h.fields (hasEnum_addTable he), filter_fields_addTable]
    intro f hf
    rw [hfs f hf]
    rfl

/-- An enum without links is linked to no field yet. -/
theorem addEnum (h : Links d P ws) {i : Nat} {e : Enum} (hnone : e.fields = [])
    (hfree : ∀ f ∈ Wiring.fields ws, f.enumId ≠ some e.id)
    (hold : ∀ {p q n e'}, HasEnum ws q n e' → (Q p q e'.id ↔ P p q e'.id))
    (hnew : ∀ {w p}, ws[i]? = some w → ¬ Q p ⟨i, w.enums.length⟩ e.id) :
    Links d Q (addEnum i e ws) where
  link := by
    intro p q f n e' hf' he'
    have hf := hasField_addEnum hf'
    rcases hasEnum_addEnum he' with he' | ⟨rfl, w, hw, rfl⟩
    · rw [h.link hf he', hold he']
    · constructor
      · exact fun hlinked => absurd hlinked (hfree f (mem_fields.mpr ⟨p, hf⟩))
      · exact fun hboth => absurd hboth.2 (hnew hw)
  fields := by
    intro q n e' he'
    rw [fields_addEnum]
    rcases hasEnum_addEnum he' with he' | ⟨rfl, -⟩
    · exact h.fields he'
    · have hempty : (Wiring.fields ws).filter (·.enumId = some e'.id) = [] := by
        rw [List.filter_eq_nil_iff]
        exact fun f hf => by simpa using hfree f hf
      rw [hnone, hempty]
      rfl

end Links

theorem foldl_pushNew_of_nodup {α : Type} [DecidableEq α] {xs ys : List α}
    (h : (xs ++ ys).Nodup) : ys.foldl pushNew xs = xs ++ ys := by
  induction ys generalizing xs with
  | nil => rw [List.foldl_nil, List.append_nil]
  | cons y ys ih =>
    have hy : y ∉ xs := by
      intro hmem
      exact (List.nodup_append.mp h).2.2 y hmem y List.mem_cons_self rfl
    rw [List.foldl_cons, pushNew, if_neg hy, ih (by simpa using h), List.append_assoc]
    rfl

theorem eq_of_isOfEnum {d n n' e e' : String} {f : FieldInfo} (h : f.isOfEnum d n e = true)
    (h' : f.isOfEnum d n' e' = true) : n = n' ∧ e = e' := by
  simp only [FieldInfo.isOfEnum, Bool.and_eq_true, decide_eq_true_eq] at h h'
  exact ⟨h.2.symm.trans h'.2, h.1.symm.trans h'.1⟩

/-- A field is linked to the enum that is bound if it passes the test. -/
theorem enumId_bindField_self {m : Field → Bool} {i : Id .enum} (h : f.enumId ≠ some i) :
    (bindField m i f).enumId = some i ↔ m f = true := by
  unfold bindField
  split
  · simp_all
  · simp_all

/-- A field keeps its link to another enum, and gets no such link. -/
theorem enumId_bindField_other {m : Field → Bool} {i j : Id .enum} (hij : j ≠ i)
    (h : m f = true → f.enumId ≠ some j) :
    (bindField m i f).enumId = some j ↔ f.enumId = some j := by
  unfold bindField
  split
  · rename_i hm
    simp [h hm, Ne.symm hij]
  · rfl

theorem filter_fields_bind (m : Field → Bool) (i j : Id .enum) (ws : List Wiring) :
    ((fields (bind m i ws)).filter (·.enumId = some j)).map (·.id)
      = ((fields ws).filter fun f => (bindField m i f).enumId = some j).map (·.id) := by
  have hids : (fun f : Field => f.id) ∘ bindField m i = fun f => f.id :=
    funext fun f => bindField_id m i f
  rw [fields_bind, List.filter_map, List.map_map, hids]
  rfl

/-- Binding an enum that no field is linked to links it to all fields that it is the type of. No
field loses a link, for none is of two types. -/
theorem Links.bind {d : String} {P : Place → Place → Id .enum → Prop} (h : Links d P ws)
    (ht : Told ws) {q₁ : Place} {n₁ : String} {e₁ : Enum} (he₁ : HasEnum ws q₁ n₁ e₁)
    (hfree : ∀ f ∈ Wiring.fields ws, f.enumId ≠ some e₁.id) :
    Links d (fun p q i => P p q i ∨ i = e₁.id)
      (bind (fun f => f.isOfEnum d n₁ e₁.name) e₁.id ws) := by
  have hkept : ∀ {p q f n e}, HasField ws p f → HasEnum ws q n e → e.id ≠ e₁.id →
      ((bindField (fun f => f.isOfEnum d n₁ e₁.name) e₁.id f).enumId = some e.id ↔
        f.enumId = some e.id) := by
    intro p q f n e hf he hne
    apply enumId_bindField_other hne
    -- A field of the type that is bound is linked to no other enum.
    intro hmatch hlinked
    obtain ⟨hn, hname⟩ := eq_of_isOfEnum ((h.link hf he).mp hlinked).1 hmatch
    exact hne (ht.names he he₁ hn hname)
  refine ⟨?_, ?_⟩
  · intro p q f' n e' hf' he'
    obtain ⟨f, hf, rfl⟩ := hasField_bind hf'
    obtain ⟨e, he, rfl⟩ := hasEnum_bind_iff.mp he'
    rw [bindField_info, bindEnum_id, bindEnum_info]
    by_cases hid : e.id = e₁.id
    · obtain ⟨rfl, hname⟩ := ht.ids he he₁ hid
      rw [hid, hname, enumId_bindField_self (hfree f (mem_fields.mpr ⟨p, hf⟩))]
      simp
    · rw [hkept hf he hid, h.link hf he]
      simp [hid]
  · intro q n e' he'
    obtain ⟨e, he, rfl⟩ := hasEnum_bind_iff.mp he'
    rw [bindEnum_id, filter_fields_bind]
    by_cases hid : e.id = e₁.id
    · have hnone : e.fields = [] := by
        rw [h.fields he, hid, List.map_eq_nil_iff, List.filter_eq_nil_iff]
        exact fun f hf => by simpa using hfree f hf
      have hnodup : (((Wiring.fields ws).filter fun f => f.isOfEnum d n₁ e₁.name).map
          (·.id)).Nodup := ht.fields.sublist (List.filter_sublist.map _)
      rw [bindEnum, if_pos hid, hnone, hid]
      change List.foldl pushNew [] _ = _
      rw [foldl_pushNew_of_nodup (by simpa using hnodup), List.nil_append]
      congr 1
      apply List.filter_congr
      intro f hf
      rw [Bool.eq_iff_iff, decide_eq_true_eq, enumId_bindField_self (hfree f hf)]
    · rw [bindEnum, if_neg hid, h.fields he]
      congr 1
      apply List.filter_congr
      intro f hf
      obtain ⟨p, hf⟩ := mem_fields.mp hf
      rw [decide_eq_decide, hkept hf he hid]

/-- An enum that is bound as it is added is linked to the fields that are there. -/
theorem Links.addBoundEnum {d : String} {P : Place → Place → Id .enum → Prop} (h : Links d P ws)
    {i : Nat} {w : Wiring} {e : Enum} (hw : ws[i]? = some w) (hnone : e.fields = [])
    (hfree : ∀ f ∈ Wiring.fields ws, f.enumId ≠ some e.id)
    (hnew : ∀ {q n e'}, HasEnum ws q n e' → e'.id ≠ e.id) (ht : Told (Wiring.addEnum i e ws))
    (hP : ∀ {p f}, HasField ws p f → P p ⟨i, w.enums.length⟩ e.id) :
    Links d P (Wiring.bind (fun f => f.isOfEnum d w.name e.name) e.id (Wiring.addEnum i e ws)) := by
  -- Before it is bound, the enum admits nothing.
  have hadded : Links d (fun p q j => P p q j ∧ j ≠ e.id) (Wiring.addEnum i e ws) := by
    apply h.addEnum hnone hfree
    · exact fun he' => and_iff_left (hnew he')
    · exact fun _ hboth => hboth.2 rfl
  have hbound := hadded.bind ht (hasEnum_addEnum_self hw e) (by
    rw [fields_addEnum]
    exact hfree)
  apply hbound.congr
  intro p q f n e' hf he'
  obtain ⟨f', hf', -⟩ := hasField_bind hf
  obtain ⟨e'', he'', rfl⟩ := hasEnum_bind_iff.mp he'
  rw [bindEnum_id]
  rcases hasEnum_addEnum he'' with he'' | ⟨rfl, w', hw', rfl⟩
  · simp [hnew he'']
  · obtain rfl := Option.some.inj (hw.symm.trans hw')
    simp [hP (hasField_addEnum hf')]

end Wiring

end Catalog
