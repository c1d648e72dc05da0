/-!
Identifiers and their allocation. Each kind of entity has a counter of its own, and all counters
start at one base. Identifiers are never issued twice; a kind whose counter has left the 32-bit
range issues no more.
-/
namespace Catalog

/-- The kinds of things that carry an identifier. -/
inductive Kind where
  | database | schema | table | field | index | indexColumn | enum | enumValue | ref | endpoint
  | tableGroup | tag
  deriving DecidableEq, Repr

namespace Kind

/-- The name of the counter. -/
def counter : Kind → String
  | database => "dbId"
  | schema => "schemaId"
  | table => "tableId"
  | field => "fieldId"
  | index => "indexId"
  | indexColumn => "indexColumnId"
  | enum => "enumId"
  | enumValue => "enumValueId"
  | ref => "refId"
  | endpoint => "endpointId"
  | tableGroup => "tableGroupId"
  | tag => "tagId"

def all : List Kind :=
  [database, schema, table, field, index, indexColumn, enum, enumValue, ref, endpoint, tableGroup,
    tag]

theorem mem_all (k : Kind) : k ∈ all := by
  cases k <;> decide

def ofCounter? (name : String) : Option Kind :=
  all.find? (·.counter = name)

theorem ofCounter?_counter (k : Kind) : ofCounter? k.counter = some k := by
  cases k <;> decide

end Kind

/-- An identifier of one kind. -/
structure Id (kind : Kind) where
  val : UInt32
  deriving DecidableEq, Repr

namespace Id

variable {k : Kind}

def toNat (i : Id k) : Nat :=
  i.val.toNat

instance : ToString (Id k) where
  toString i := toString i.toNat

theorem toNat_lt (i : Id k) : i.toNat < UInt32.size :=
  i.val.toNat_lt

theorem toNat_inj {i j : Id k} (h : i.toNat = j.toNat) : i = j := by
  cases i; cases j
  simpa [toNat, UInt32.toNat_inj] using h

end Id

/-- How often each kind has been counted; a kind without an entry not at all. -/
abbrev Tally := List (Kind × Nat)

namespace Tally

def count (k : Kind) : Tally → Nat
  | [] => 0
  | (k', n) :: rest => if k = k' then n else count k rest

def add (k : Kind) : Tally → Tally
  | [] => [(k, 1)]
  | (k', n) :: rest => if k = k' then (k', n + 1) :: rest else (k', n) :: add k rest

theorem count_add (k k' : Kind) (t : Tally) :
    (t.add k).count k' = t.count k' + if k' = k then 1 else 0 := by
  induction t with
  | nil => by_cases h : k' = k <;> simp [add, count, h]
  | cons e t ih =>
    obtain ⟨k₁, n⟩ := e
    by_cases h₁ : k = k₁ <;> by_cases h : k' = k <;> by_cases h₂ : k' = k₁ <;>
      simp_all [add, count]

end Tally

/-- How many identifiers of each kind have been issued, counted from `base`. -/
structure Allocator where
  base : UInt32 := 1
  tally : Tally := []
  deriving DecidableEq, Repr

namespace Allocator

def issued (a : Allocator) (k : Kind) : Nat :=
  a.tally.count k

/-- The number that the next identifier of a kind would have. -/
def next (a : Allocator) (k : Kind) : Nat :=
  a.base.toNat + a.issued k

/-- The identifier that the next allocation of a kind returns, if there is one left. -/
def peek (a : Allocator) (k : Kind) : Option (Id k) :=
  if h : a.next k < UInt32.size then some ⟨UInt32.ofNatLT (a.next k) h⟩ else none

/-- Counts one more identifier of a kind as issued. -/
def advance (a : Allocator) (k : Kind) : Allocator :=
  { a with tally := a.tally.add k }

/-- Issues the next identifier of a kind; an exhausted allocator stays as it is. -/
def allocate? (a : Allocator) (k : Kind) : Option (Id k × Allocator) :=
  (a.peek k).map fun i => (i, a.advance k)

@[simp] theorem issued_start (base : UInt32) (k : Kind) : issued ⟨base, []⟩ k = 0 :=
  rfl

@[simp] theorem base_advance (a : Allocator) (k : Kind) : (a.advance k).base = a.base :=
  rfl

theorem issued_advance (a : Allocator) (k k' : Kind) :
    (a.advance k).issued k' = a.issued k' + if k' = k then 1 else 0 :=
  Tally.count_add k k' a.tally

theorem peek_eq_some_iff {a : Allocator} {k : Kind} {i : Id k} :
    a.peek k = some i ↔ a.next k = i.toNat := by
  constructor
  · intro h
    simp only [peek] at h
    split at h
    · cases h
      simp [Id.toNat]
    · cases h
  · intro h
    have lt : a.next k < UInt32.size := h ▸ i.toNat_lt
    simp only [peek, lt, dite_true, Option.some.injEq]
    exact Id.toNat_inj (by simpa [Id.toNat] using h)

theorem peek_eq_none_iff {a : Allocator} {k : Kind} : a.peek k = none ↔ UInt32.size ≤ a.next k := by
  simp [peek]

end Allocator

end Catalog
