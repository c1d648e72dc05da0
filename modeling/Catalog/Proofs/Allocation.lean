import Catalog.Proofs.Drafting
import Mathlib.Data.List.Induction
import Mathlib.Logic.Function.Basic

/-!
Allocators as their callers see them. The identifiers of a kind go up from the base one by one,
whatever else is asked for in between, until the 32-bit range is used up; what is announced and what
is counted agrees with what has been issued. Counters that are kept in words of 64 bits give the
same answers, since none of them passes the first number that is no identifier.
-/
namespace Catalog

namespace Allocator

/-! Calls and their answers. -/

/-- What an allocator can be asked. -/
inductive Call where
  | allocate (k : Kind)
  | peek (k : Kind)
  | issued (k : Kind)
  deriving DecidableEq, Repr

/-- What it says to that. -/
inductive Answer where
  | allocated (k : Kind) (result : Except Rejection (Id k))
  | peeked (k : Kind) (next : Option (Id k))
  | issued (k : Kind) (count : Nat)

/-- Whether an identifier of a kind has been issued with the answer. -/
def Answer.issues (k : Kind) : Answer → Bool
  | allocated k' (.ok _) => k' = k
  | _ => false

def answer : Call → Allocator → Answer × Allocator
  | .allocate k, a => (.allocated k ((issue k).run a).1, ((issue k).run a).2)
  | .peek k, a => (.peeked k (a.peek k), a)
  | .issued k, a => (.issued k (a.issued k), a)

section Serve

variable {σ : Type} (answer : Call → σ → Answer × σ)

/-- The answers to calls that are made one after the other, and the state after the last one. -/
def serve : List Call → σ → List Answer × σ
  | [], s => ([], s)
  | c :: cs, s =>
    let (r, t) := answer c s
    let (rs, u) := serve cs t
    (r :: rs, u)

theorem serve_append (cs ds : List Call) (s : σ) : serve answer (cs ++ ds) s =
    ((serve answer cs s).1 ++ (serve answer ds (serve answer cs s).2).1,
      (serve answer ds (serve answer cs s).2).2) := by
  induction cs generalizing s with
  | nil => rfl
  | cons c cs ih => simp only [List.cons_append, serve, ih]

theorem serve_concat (cs : List Call) (c : Call) (s : σ) : serve answer (cs ++ [c]) s =
    ((serve answer cs s).1 ++ [(answer c (serve answer cs s).2).1],
      (answer c (serve answer cs s).2).2) := by
  rw [serve_append]
  rfl

theorem length_serve (cs : List Call) (s : σ) : (serve answer cs s).1.length = cs.length := by
  induction cs generalizing s with
  | nil => rfl
  | cons c cs ih => simp only [serve, List.length_cons, ih]

theorem take_serve (earlier later : List Call) (s : σ) :
    (serve answer (earlier ++ later) s).1.take earlier.length = (serve answer earlier s).1 := by
  rw [serve_append, ← length_serve answer earlier s, List.take_left]

/-- A call is answered by what the earlier ones have left. -/
theorem getElem?_serve (earlier later : List Call) (c : Call) (s : σ) :
    (serve answer (earlier ++ c :: later) s).1[earlier.length]? =
      some (answer c (serve answer earlier s).2).1 := by
  rw [serve_append, ← length_serve answer earlier s]
  simp [serve]

end Serve

/-! What the answers count. -/

/-- What the allocation of an identifier gives after `n` others of its kind. -/
def numbered (base : UInt32) (k : Kind) (n : Nat) : Except Rejection (Id k) :=
  if h : base.toNat + n < UInt32.size then .ok ⟨.ofNatLT _ h⟩
  else .error { cause := .idSpaceExhausted k.counter base }

/-- The answers to calls of an allocator that starts at `base`. An allocation that fails counts like
one that succeeds, and other kinds do not count. -/
structure CountsUp (base : UInt32) (calls : List Call) (answers : List Answer) : Prop where
  allocates : ∀ earlier k later, calls = earlier ++ .allocate k :: later →
    answers[earlier.length]? =
      some (.allocated k (numbered base k (earlier.count (.allocate k))))
  /-- What would be issued next is announced, and nothing where nothing would be. -/
  peeks : ∀ earlier k later, calls = earlier ++ .peek k :: later →
    answers[earlier.length]? =
      some (.peeked k (numbered base k (earlier.count (.allocate k))).toOption)
  counts : ∀ earlier k later, calls = earlier ++ .issued k :: later →
    answers[earlier.length]? =
      some (.issued k ((answers.take earlier.length).countP (·.issues k)))

/-- An allocator after calls that have been answered. -/
structure Tallied (base : UInt32) (calls : List Call) (answers : List Answer) (a : Allocator) :
    Prop where
  starts : a.base = base
  next : ∀ k, a.next k = min (base.toNat + calls.count (.allocate k)) UInt32.size
  issued : ∀ k, a.issued k = answers.countP (·.issues k)

theorem next_advance (a : Allocator) (k k' : Kind) :
    (a.advance k).next k' = a.next k' + if k' = k then 1 else 0 := by
  rw [next, next, issued_advance, base_advance, Nat.add_assoc]

theorem toOption_issue (a : Allocator) (k : Kind) :
    ((issue k).run a).1.toOption = a.peek k := by
  cases hp : a.peek k with
  | none => rw [issue_none hp]; rfl
  | some i => rw [issue_some hp]; rfl

namespace Tallied

variable {base : UInt32} {calls : List Call} {answers : List Answer} {a : Allocator}

theorem next_le (h : Tallied base calls answers a) (k : Kind) : a.next k ≤ UInt32.size := by
  rw [h.next k]
  exact Nat.min_le_right _ _

theorem issue_eq (h : Tallied base calls answers a) (k : Kind) :
    ((issue k).run a).1 = numbered base k (calls.count (.allocate k)) := by
  have hnext := h.next k
  unfold numbered
  cases hp : a.peek k with
  | none =>
    have hfull := peek_eq_none_iff.mp hp
    rw [issue_none hp, dif_neg (by omega), h.starts]
  | some i =>
    have hi := peek_eq_some_iff.mp hp
    have hlt : a.next k < UInt32.size := hi ▸ i.toNat_lt
    rw [issue_some hp, dif_pos (by omega)]
    refine congrArg Except.ok (Id.toNat_inj ?_)
    rw [← hi, Id.toNat, UInt32.toNat_ofNatLT]
    omega

/-- A refused allocation counts as one, but what it counts towards has been reached already. -/
theorem refuse (h : Tallied base calls answers a) {k : Kind} (hp : a.peek k = none)
    (r : Rejection) :
    Tallied base (calls ++ [.allocate k]) (answers ++ [.allocated k (.error r)]) a := by
  have hfull := peek_eq_none_iff.mp hp
  refine ⟨h.starts, fun k' => ?_, fun k' => ?_⟩
  · have hnext := h.next k'
    rw [List.count_append, hnext]
    rcases eq_or_ne k' k with rfl | hne
    · omega
    · simp [hne.symm]
  · simp [h.issued k', Answer.issues]

theorem advance (h : Tallied base calls answers a) {k : Kind} {i : Id k} (hp : a.peek k = some i) :
    Tallied base (calls ++ [.allocate k]) (answers ++ [.allocated k (.ok i)]) (a.advance k) := by
  have hleft : a.next k < UInt32.size := peek_eq_some_iff.mp hp ▸ i.toNat_lt
  refine ⟨h.starts, fun k' => ?_, fun k' => ?_⟩
  · have hnext := h.next k'
    rw [next_advance, List.count_append]
    rcases eq_or_ne k' k with rfl | hne
    · rw [if_pos rfl, List.count_singleton_self]
      omega
    · simp [hne, hne.symm, hnext]
  · simp [issued_advance, h.issued k', Answer.issues, List.countP_append, eq_comm]

theorem ask (h : Tallied base calls answers a) {c : Call} {r : Answer}
    (hc : ∀ k, c ≠ .allocate k) (hr : ∀ k, r.issues k = false) :
    Tallied base (calls ++ [c]) (answers ++ [r]) a := by
  refine ⟨h.starts, fun k => ?_, fun k => ?_⟩
  · simp [h.next k, List.count_append, hc k]
  · simp [h.issued k, List.countP_append, hr k]

/-- One more call is tallied. -/
theorem answer (h : Tallied base calls answers a) (c : Call) :
    Tallied base (calls ++ [c]) (answers ++ [(answer c a).1]) (answer c a).2 := by
  cases c with
  | allocate k =>
    cases hp : a.peek k with
    | none =>
      rw [Allocator.answer, issue_none hp]
      exact h.refuse hp _
    | some i =>
      rw [Allocator.answer, issue_some hp]
      exact h.advance hp
  | peek k => exact h.ask (fun _ => nofun) fun _ => rfl
  | issued k => exact h.ask (fun _ => nofun) fun _ => rfl

end Tallied

theorem tallied_serve (base : UInt32) (calls : List Call) :
    Tallied base calls (serve answer calls { base }).1 (serve answer calls { base }).2 := by
  induction calls using List.reverseRecOn with
  | nil =>
    refine ⟨rfl, fun k => ?_, fun k => rfl⟩
    exact (Nat.min_eq_left (Nat.le_of_lt base.toNat_lt)).symm
  | append_singleton calls c ih =>
    rw [serve_concat]
    exact ih.answer c

end Allocator

/-! Registers. -/

/-- Counters kept in words, as numbers to be issued next. A register is set up by the first call that
asks for an identifier of its kind. -/
structure Registers where
  base : UInt32
  stored : Kind → Option UInt64 := fun _ => none

namespace Registers

open Allocator (Call Answer serve)

def counter (r : Registers) (k : Kind) : UInt64 :=
  (r.stored k).getD r.base.toUInt64

def store (r : Registers) (k : Kind) (n : UInt64) : Registers :=
  { r with stored := Function.update r.stored k (some n) }

/-- The identifier with a number, if the number is not too great. -/
def id? (k : Kind) (n : UInt64) : Option (Id k) :=
  if n.toNat < UInt32.size then some ⟨n.toUInt32⟩ else none

/-- Sums and differences are taken modulo the size of a word. -/
def answer : Call → Registers → Answer × Registers
  | .allocate k, r =>
    let n := r.counter k
    match id? k n with
    | some i => (.allocated k (.ok i), r.store k (n + 1))
    -- The register is set up before the call is refused, with what it counts as anyway.
    | none => (.allocated k (.error { cause := .idSpaceExhausted k.counter r.base }), r.store k n)
  | .peek k, r => (.peeked k (id? k (r.counter k)), r)
  | .issued k, r => (.issued k (r.counter k - r.base.toUInt64).toNat, r)

theorem counter_store (r : Registers) (k k' : Kind) (n : UInt64) :
    (r.store k n).counter k' = if k' = k then n else r.counter k' := by
  by_cases h : k' = k <;> simp [counter, store, h]

/-- The registers hold what an allocator would issue next. -/
structure Holds (r : Registers) (a : Allocator) : Prop where
  base : r.base = a.base
  counter : ∀ k, (r.counter k).toNat = a.next k

variable {r : Registers} {a : Allocator}

theorem Holds.id?_eq (h : r.Holds a) (k : Kind) : id? k (r.counter k) = a.peek k := by
  have hcounter := h.counter k
  unfold id?
  cases hp : a.peek k with
  | none =>
    have hfull := Allocator.peek_eq_none_iff.mp hp
    rw [if_neg (by omega)]
  | some i =>
    have hi := Allocator.peek_eq_some_iff.mp hp
    have hlt : (r.counter k).toNat < UInt32.size := by
      rw [hcounter, hi]
      exact i.toNat_lt
    rw [if_pos hlt]
    refine congrArg some (Id.toNat_inj ?_)
    rw [← hi, ← hcounter, Id.toNat, UInt64.toNat_toUInt32]
    exact Nat.mod_eq_of_lt hlt

theorem Holds.sub_base (h : r.Holds a) (k : Kind) :
    (r.counter k - r.base.toUInt64).toNat = a.issued k := by
  have hcounter := h.counter k
  have hbase : r.base.toUInt64.toNat = a.base.toNat := by
    rw [h.base, UInt32.toNat_toUInt64]
  rw [Allocator.next] at hcounter
  rw [UInt64.toNat_sub_of_le _ _ (UInt64.le_iff_toNat_le.mpr (by omega)), hbase]
  omega

theorem Holds.store (h : r.Holds a) {k : Kind} {n : UInt64} {a' : Allocator}
    (hbase : a'.base = a.base) (hk : n.toNat = a'.next k)
    (hothers : ∀ k', k' ≠ k → a'.next k' = a.next k') : (r.store k n).Holds a' := by
  refine ⟨h.base.trans hbase.symm, fun k' => ?_⟩
  rw [counter_store]
  split
  · rename_i heq
    rw [heq, hk]
  · rename_i hne
    rw [hothers k' hne, h.counter k']

/-- As far as identifiers go, one more is far from the end of the word. -/
theorem toNat_add_one {n : UInt64} (hn : n.toNat ≤ 2 ^ 32) : (n + 1).toNat = n.toNat + 1 := by
  have hfits : n.toNat + 1 < 2 ^ 64 := by omega
  rw [UInt64.toNat_add]
  exact Nat.mod_eq_of_lt hfits

/-- Both give the same answer, and go on alike. -/
theorem Holds.answer (h : r.Holds a) (c : Call) :
    (Registers.answer c r).1 = (Allocator.answer c a).1 ∧
      (Registers.answer c r).2.Holds (Allocator.answer c a).2 := by
  cases c with
  | allocate k =>
    have hid := h.id?_eq k
    cases hp : a.peek k with
    | none =>
      simp only [Registers.answer, hid, Allocator.answer, issue_none hp, hp, h.base, true_and]
      exact h.store rfl (h.counter k) fun _ _ => rfl
    | some i =>
      simp only [Registers.answer, hid, Allocator.answer, issue_some hp, hp, true_and]
      refine h.store rfl ?_ fun k' hne => ?_
      · have hleft : a.next k < UInt32.size := Allocator.peek_eq_some_iff.mp hp ▸ i.toNat_lt
        rw [Allocator.next_advance, if_pos rfl, ← h.counter k]
        exact toNat_add_one (h.counter k ▸ Nat.le_of_lt hleft)
      · rw [Allocator.next_advance, if_neg hne, Nat.add_zero]
  | peek k => exact ⟨by rw [Registers.answer, Allocator.answer, h.id?_eq], h⟩
  | issued k => exact ⟨by rw [Registers.answer, Allocator.answer, h.sub_base], h⟩

theorem Holds.serve (h : r.Holds a) (calls : List Call) :
    (Allocator.serve Registers.answer calls r).1 = (Allocator.serve Allocator.answer calls a).1 ∧
      (Allocator.serve Registers.answer calls r).2.Holds
        (Allocator.serve Allocator.answer calls a).2 := by
  induction calls generalizing r a with
  | nil => exact ⟨rfl, h⟩
  | cons c calls ih =>
    obtain ⟨hanswer, hnext⟩ := h.answer c
    obtain ⟨hanswers, hlast⟩ := ih hnext
    simp only [Allocator.serve, hanswer, hanswers]
    exact ⟨trivial, hlast⟩

theorem holds_start (base : UInt32) : Registers.Holds { base } { base } :=
  ⟨rfl, fun _ => UInt32.toNat_toUInt64 base⟩

/-- The number next to be issued is at most one past the last identifier, and computing with it does
not leave the word. -/
structure Exact (r : Registers) (k : Kind) : Prop where
  bounded : (r.counter k).toNat ≤ 2 ^ 32
  sum : (r.counter k + 1).toNat = (r.counter k).toNat + 1
  difference : r.base.toNat + (r.counter k - r.base.toUInt64).toNat = (r.counter k).toNat

theorem Holds.exact (h : r.Holds a) {k : Kind} (hle : a.next k ≤ UInt32.size) : r.Exact k := by
  have hbounded : (r.counter k).toNat ≤ 2 ^ 32 := h.counter k ▸ hle
  refine ⟨hbounded, toNat_add_one hbounded, ?_⟩
  rw [h.sub_base, h.counter k, h.base]
  rfl

end Registers

namespace Allocator

theorem countsUp_serve (base : UInt32) (calls : List Call) :
    CountsUp base calls (serve answer calls { base }).1 where
  allocates := by
    rintro earlier k later rfl
    rw [getElem?_serve, answer, (tallied_serve base earlier).issue_eq]
  peeks := by
    rintro earlier k later rfl
    rw [getElem?_serve, answer, ← toOption_issue, (tallied_serve base earlier).issue_eq]
  counts := by
    rintro earlier k later rfl
    rw [getElem?_serve, answer, take_serve, (tallied_serve base earlier).issued]

/-- Whatever an allocator is asked, and wherever it starts, its identifiers go up one by one. -/
theorem counts_up (base : UInt32) (calls : List Call) :
    CountsUp base calls (serve answer calls { base }).1 ∧
      (serve Registers.answer calls { base }).1 = (serve answer calls { base }).1 ∧
      ∀ k, (serve Registers.answer calls { base }).2.Exact k := by
  obtain ⟨hsame, hholds⟩ := (Registers.holds_start base).serve calls
  exact ⟨countsUp_serve base calls, hsame,
    fun k => hholds.exact ((tallied_serve base calls).next_le k)⟩

/-- Two identifiers are left of each kind, and the third call for a table is refused. -/
example : (serve answer [.allocate .table, .allocate .table, .allocate .table, .issued .table,
      .peek .table, .peek .field] { base := 4294967294 }).1 =
    [.allocated .table (.ok ⟨4294967294⟩), .allocated .table (.ok ⟨4294967295⟩),
      .allocated .table (.error { cause := .idSpaceExhausted "tableId" 4294967294 }),
      .issued .table 2, .peeked .table none, .peeked .field (some ⟨4294967294⟩)] := by
  rfl

end Allocator

end Catalog
