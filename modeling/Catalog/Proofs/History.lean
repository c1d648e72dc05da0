import Catalog.Proofs.EnumLinks
import Catalog.Proofs.History.Filed
import Catalog.Proofs.History.Steady

/-!
The history of a database is append-only. Whatever operations follow on a state that has been built
or reached, successful or rejected, nothing in it is lost, moved or linked to something else.
-/
namespace Catalog.Assembly

variable {a b : Assembly}

/-- Operations lead from one state to another, one after the other. Each of them can be performed on
the state that it is performed on. -/
abbrev Leads : Assembly → Assembly → Prop :=
  Relation.ReflTransGen fun a b => ∃ op : Operation, op.AppliesTo a.database ∧ b = a.after op

theorem Leads.changes (hab : a.Leads b) : Changes .full a b := by
  induction hab with
  | refl => exact .refl
  | tail _ hop ih =>
    obtain ⟨op, happlies, rfl⟩ := hop
    exact ih.trans (Operation.changes happlies)

theorem Leads.reachable (hab : a.Leads b) (h : a.Reachable) : b.Reachable := by
  induction hab with
  | refl => exact h
  | tail _ hop ih =>
    obtain ⟨op, happlies, rfl⟩ := hop
    exact ih.step happlies

/-- Entities stay where they are, under their owners, with what they were declared with; lists get
longer at the end if at all, and links that have been drawn are there for good. -/
theorem Reachable.grows_of_leads (h : a.Reachable) (hab : a.Leads b) :
    a.database.Grows b.database ∧ a.database.normalize.Grows b.database.normalize := by
  have hgrows := h.steady.grows hab.changes
  exact ⟨hgrows, hgrows.normalize h.sound.nodup_arena (hab.reachable h).sound.nodup_arena⟩

/-- An enum that bears the name of one in another schema takes no field from it, and one that bears
the name of one in its own is rejected. -/
theorem grows_of_leads_parcels : ∃ a, build .parcels {} = .ok a ∧
    let a₁ := a.after .bindEnums
    let a₂ := a₁.after (.pushEnum ⟨2⟩ { name := "state" })
    let a₃ := a₂.after (.pushEnum ⟨2⟩ { name := "size" })
    let b := a₃.after .bindEnums
    a₁.Leads b ∧ a₁.database.Grows b.database ∧
      a₁.database.normalize.Grows b.database.normalize ∧
      b.database.fields.map (·.enumId) = [some ⟨1⟩, some ⟨2⟩] ∧
      b.database.enums.map (·.id) = [⟨1⟩, ⟨2⟩, ⟨3⟩] := by
  have hbuilt : (build .parcels {}).toOption.any (fun a =>
      let a₁ := a.after .bindEnums
      let a₂ := a₁.after (.pushEnum ⟨2⟩ { name := "state" })
      let a₃ := a₂.after (.pushEnum ⟨2⟩ { name := "size" })
      let b := a₃.after .bindEnums
      (a₁.database.schemas.any (·.id = ⟨2⟩) && a₂.database.schemas.any (·.id = ⟨2⟩)) &&
        decide (b.database.fields.map (·.enumId) = [some ⟨1⟩, some ⟨2⟩] ∧
          b.database.enums.map (·.id) = [⟨1⟩, ⟨2⟩, ⟨3⟩])) = true := by
    decide +kernel
  obtain ⟨a, ha, heval⟩ := exists_ok_of_any hbuilt
  simp only [Bool.and_eq_true, List.any_eq_true, decide_eq_true_eq] at heval
  obtain ⟨⟨hschema, hschema'⟩, hlinks⟩ := heval
  have hleads : (a.after .bindEnums).Leads ((((a.after .bindEnums).after
      (.pushEnum ⟨2⟩ { name := "state" })).after (.pushEnum ⟨2⟩ { name := "size" })).after
        .bindEnums) :=
    .tail (.tail (.single ⟨.pushEnum ⟨2⟩ { name := "state" }, hschema, rfl⟩)
      ⟨.pushEnum ⟨2⟩ { name := "size" }, hschema', rfl⟩) ⟨.bindEnums, trivial, rfl⟩
  have hreach : (a.after .bindEnums).Reachable := .step (.build ha) trivial
  obtain ⟨hgrows, hflat⟩ := hreach.grows_of_leads hleads
  exact ⟨a, ha, hleads, hgrows, hflat, hlinks⟩

end Catalog.Assembly
