import Catalog.Attempt
import Catalog.Database.Update

/-!
Assembly: a database under construction and the allocator of its identifiers. A record is drafted
first, which takes identifiers and may be rejected, and committed after that, which may not. So a
rejected record costs identifiers and leaves the database as it was.
-/
namespace Catalog

structure Assembly where
  database : Database
  ids : Allocator
  deriving DecidableEq, Repr

/-- Work that takes identifiers and touches nothing else. -/
abbrev Drafting := Attempt Allocator

abbrev Construction := Attempt Assembly

def issue (k : Kind) : Drafting (Id k) := fun a =>
  match a.allocate? k with
  | some (i, a) => (.ok i, a)
  | none => (.error { cause := .idSpaceExhausted k.counter a.base }, a)

namespace Assembly

/-- An assembly without schemas; the database has taken the first identifier of its kind. -/
def start (config : Config) (info : DatabaseInfo) : Assembly where
  database := { toDatabaseInfo := info, id := ⟨config.idBase⟩, config }
  ids := Allocator.advance { base := config.idBase } .database

variable {δ : Type}

/-- Commits what is drafted from the database as it stands. -/
def insert (draft : Database → Drafting δ) (commit : Database → δ → Database) : Construction δ :=
  fun s =>
    match (draft s.database).run s.ids with
    | (.ok d, ids) => (.ok d, ⟨commit s.database d, ids⟩)
    | (.error r, ids) => (.error r, ⟨s.database, ids⟩)

theorem insert_ok {draft : Database → Drafting δ} {commit : Database → δ → Database}
    {s : Assembly} {d : δ} {ids : Allocator} (h : (draft s.database).run s.ids = (.ok d, ids)) :
    (insert draft commit).run s = (.ok d, ⟨commit s.database d, ids⟩) := by
  simp [Attempt.run, insert] at *
  rw [h]

theorem insert_error {draft : Database → Drafting δ} {commit : Database → δ → Database}
    {s : Assembly} {r : Rejection} {ids : Allocator}
    (h : (draft s.database).run s.ids = (.error r, ids)) :
    (insert draft commit).run s = (.error r, ⟨s.database, ids⟩) := by
  simp [Attempt.run, insert] at *
  rw [h]

/-- Rejects a name that a child of the same sort has taken. -/
def checkName (db : Database) (schema : Id .schema) (sort : ChildSort) (name : String)
    (token : Span) : Drafting Unit :=
  match db.schema? schema with
  | none => pure ()
  | some s =>
    if name ∈ s.names sort then
      .reject { cause := .duplicateChild sort (db.shownSchema s) name, span := token }
    else pure ()

end Assembly

end Catalog
