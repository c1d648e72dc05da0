import Catalog.Operation
import Catalog.Proofs.Change.Insert
import Catalog.Proofs.Mirror.Build

/-!
A rejected insertion costs identifiers and nothing else: whatever the reason, and wherever in the
record it shows up, the database is the one from before.
-/
namespace Catalog

namespace Operation

/-- Whether an operation inserts a single record, or a schema without any. -/
def isInsertion : Operation → Bool
  | pushSchema .. | pushTable .. | pushEnum .. | pushRef .. | pushTableGroup .. | pushTag .. => true
  | getOrCreateSchema _ | process .. | bindEnum _ | bindEnums => false

/-- An insertion that is rejected has taken identifiers at most. -/
theorem meets_insertion {op : Operation} {a : Assembly} (hop : op.isInsertion = true)
    (happlies : op.AppliesTo a.database) :
    op.perform.Meets a (fun _ _ => True) fun _ b => a.Spent b := by
  have answered : ∀ {α : Type} {m : Construction α} {P : α → Assembly → Prop} (f : α → Outcome),
      m.Meets a P (fun _ b => a.Spent b) →
      (do pure (f (← m)) : Construction Outcome).Meets a (fun _ _ => True) fun _ b => a.Spent b :=
    fun _ hm => hm.bind fun _ _ _ => Attempt.meets_pure trivial
  have found : ∀ {id : Id .schema}, (∃ s ∈ a.database.schemas, s.id = id) →
      ∃ s, a.database.schema? id = some s := by
    rintro id ⟨s, hs, hid⟩
    exact Option.isSome_iff_exists.mp (List.find?_isSome.mpr ⟨s, hs, decide_eq_true hid⟩)
  cases op with
  | pushSchema info token => exact answered _ (Assembly.meets_pushSchema info token)
  | pushTable id d =>
    obtain ⟨s, hs⟩ := found happlies
    exact answered _ (Assembly.meets_pushTable hs d)
  | pushEnum id d =>
    obtain ⟨s, hs⟩ := found happlies
    exact answered _ (Assembly.meets_pushEnum hs d)
  | pushRef id d =>
    obtain ⟨s, hs⟩ := found happlies
    exact answered _ (Assembly.meets_pushRef hs d)
  | pushTableGroup id d =>
    obtain ⟨s, hs⟩ := found happlies
    exact answered _ (Assembly.meets_pushTableGroup hs d)
  | pushTag id d =>
    obtain ⟨s, hs⟩ := found happlies
    exact answered _ (Assembly.meets_pushTag hs d)
  | getOrCreateSchema _ => cases hop
  | process _ _ => cases hop
  | bindEnum _ => cases hop
  | bindEnums => cases hop

end Operation

namespace Assembly

variable {a b : Assembly} {op : Operation} {r : Rejection}

/-- A rejected insertion leaves no trace but in the allocator, which does not go back. -/
theorem spent_of_rejected (hop : op.isInsertion = true) (happlies : op.AppliesTo a.database)
    (hrun : op.perform.run a = (.error r, b)) :
    b.database = a.database ∧ a.ids.Precedes b.ids := by
  have hspent := (Operation.meets_insertion hop happlies).of_run_error hrun
  exact ⟨hspent.database, hspent.ids⟩

end Assembly

/-- A table for which, next to one schema, the last two identifiers do not suffice. -/
def Operation.pushUsers : Operation :=
  .pushTable ⟨4294967294⟩
    { name := "users",
      fields := [.ofType "id" "int", .ofType "name" "text", .ofType "born" "date"] }

/-- The identifiers run out at the third field. -/
theorem Assembly.spent_of_rejected_users :
    ∃ a b r, build { schemas := [{ name := "public" }] } { idBase := 4294967294 } = .ok a ∧
      a.Reachable ∧ Operation.pushUsers.AppliesTo a.database ∧
      Operation.pushUsers.perform.run a = (.error r, b) ∧ r.kind = .idSpaceExhausted ∧
      b.ids.issued .field = 2 ∧ b.database = a.database ∧ a.ids.Precedes b.ids := by
  have hbuilt : (build { schemas := [{ name := "public" }] }
      { idBase := 4294967294 }).toOption.any (fun a =>
        a.database.schemas.any (·.id = ⟨4294967294⟩) &&
        match Operation.pushUsers.perform.run a with
        | (.error r, b) => r.kind = .idSpaceExhausted ∧ b.ids.issued .field = 2
        | (.ok _, _) => false) = true := by
    decide +kernel
  obtain ⟨a, ha, heval⟩ := exists_ok_of_any hbuilt
  rw [Bool.and_eq_true, List.any_eq_true] at heval
  obtain ⟨⟨s, hs, hid⟩, heval⟩ := heval
  have happlies : Operation.pushUsers.AppliesTo a.database := ⟨s, hs, of_decide_eq_true hid⟩
  split at heval
  · rename_i r b hrun
    obtain ⟨hkind, hissued⟩ := of_decide_eq_true heval
    exact ⟨a, b, r, ha, .build ha, happlies, hrun, hkind, hissued,
      spent_of_rejected rfl happlies hrun⟩
  · cases heval

end Catalog
