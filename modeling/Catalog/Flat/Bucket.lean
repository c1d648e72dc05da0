import Catalog.Identifier

/-!
Buckets: records filed under identifiers, in ascending order.
-/
namespace Catalog

/-- A list filed under strictly ascending identifiers. -/
def Ascending {k : Kind} {α : Type} (es : List (Id k × α)) : Prop :=
  es.Pairwise fun e f => e.1.toNat < f.1.toNat

structure Bucket (k : Kind) (α : Type) where
  entries : List (Id k × α) := []
  ascending : Ascending entries := by exact List.Pairwise.nil
  deriving DecidableEq, Repr

namespace Bucket

variable {k : Kind} {α : Type}

/-- Files a record in an ascending list, in place of one with the same identifier. -/
def insertEntry (id : Id k) (a : α) : List (Id k × α) → List (Id k × α)
  | [] => [(id, a)]
  | (i, b) :: rest =>
    if id.toNat < i.toNat then (id, a) :: (i, b) :: rest
    else if id = i then (id, a) :: rest
    else (i, b) :: insertEntry id a rest

theorem mem_insertEntry {id : Id k} {a : α} {es : List (Id k × α)} {e : Id k × α}
    (h : e ∈ insertEntry id a es) : e = (id, a) ∨ e ∈ es := by
  induction es with
  | nil => exact .inl (by simpa [insertEntry] using h)
  | cons f rest ih =>
    obtain ⟨i, b⟩ := f
    simp only [insertEntry] at h
    split at h
    · simpa using h
    · split at h
      · rcases List.mem_cons.1 h with h | h
        · exact .inl h
        · exact .inr (.tail _ h)
      · rcases List.mem_cons.1 h with h | h
        · exact .inr (h ▸ .head _)
        · exact (ih h).imp_right (.tail _)

theorem ascending_insertEntry (id : Id k) (a : α) {es : List (Id k × α)} (h : Ascending es) :
    Ascending (insertEntry id a es) := by
  induction es with
  | nil => exact List.pairwise_singleton _ _
  | cons f rest ih =>
    obtain ⟨i, b⟩ := f
    obtain ⟨first, tail⟩ := List.pairwise_cons.1 h
    simp only [insertEntry]
    split
    · rename_i lt
      refine List.pairwise_cons.2 ⟨fun e he => ?_, h⟩
      rcases List.mem_cons.1 he with rfl | he
      · exact lt
      · exact Nat.lt_trans lt (first e he)
    · split
      · rename_i eq
        exact List.pairwise_cons.2 ⟨fun e he => eq ▸ first e he, tail⟩
      · rename_i le ne
        refine List.pairwise_cons.2 ⟨fun e he => ?_, ih tail⟩
        rcases mem_insertEntry he with rfl | he
        · exact Nat.lt_of_le_of_ne (Nat.le_of_not_lt le) fun eq => ne (Id.toNat_inj eq.symm)
        · exact first e he

def insert (b : Bucket k α) (id : Id k) (a : α) : Bucket k α where
  entries := insertEntry id a b.entries
  ascending := ascending_insertEntry id a b.ascending

/-- Files records one after another; the last one with some identifier stays. -/
def ofList (es : List (Id k × α)) : Bucket k α :=
  es.foldl (fun b e => b.insert e.1 e.2) {}

def get? (b : Bucket k α) (id : Id k) : Option α :=
  (b.entries.find? (·.1 = id)).map (·.2)

@[simp] theorem get?_empty (id : Id k) : get? ({} : Bucket k α) id = none :=
  rfl

theorem get?_insert (b : Bucket k α) (i j : Id k) (a : α) :
    (b.insert i a).get? j = if j = i then some a else b.get? j := by
  simp only [get?, insert]
  generalize b.entries = es
  induction es with
  | nil => by_cases h : i = j <;> simp [insertEntry, h, eq_comm]
  | cons f rest ih =>
    obtain ⟨l, c⟩ := f
    simp only [insertEntry]
    split
    · by_cases h : j = i <;> simp_all [eq_comm]
    · split
      · by_cases h : j = i <;> simp_all [eq_comm]
      · rename_i ne
        by_cases h : l = j
        · subst h
          simp [Ne.symm ne]
        · simp_all

def ids (b : Bucket k α) : List (Id k) :=
  b.entries.map (·.1)

def size (b : Bucket k α) : Nat :=
  b.entries.length

end Bucket

end Catalog
