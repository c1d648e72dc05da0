import Catalog.Proofs.Flattening.Reading
import Catalog.Proofs.Integrity.Reach
import Catalog.Proofs.Tree

/-!
The flat model of a reachable database says what the database says, entity by entity and as a whole.
-/
namespace Catalog

/-- A flat model has one record for each entity of a database and no others, filed and linked as
they should be, and its tree is the export. -/
structure Database.DescribedBy (db : Database) (m : Flat.Model) : Prop where
  keys : ∀ k, (m.keys k).Perm (db.arena k)
  closed : m.Closed
  parented : m.Parented
  recordCount : m.recordCount = 1 + (db.schemas.length + db.refs.length + db.enums.length
    + db.tableGroups.length + db.tags.length + db.tables.length + db.endpoints.length
    + db.enumValues.length + db.indexes.length + db.indexColumns.length + db.fields.length)
  tree : m.tree? = some db.toExport

namespace Assembly

variable {a : Assembly}

theorem exists_build_orders : ∃ a, build .orders {} = .ok a := by
  obtain ⟨db, hdb⟩ := Database.exists_build_orders
  obtain ⟨a, ha, -⟩ := Database.build_eq_ok_iff.mp hdb
  exact ⟨a, ha⟩

/-- Normalization loses nothing and makes nothing up. -/
theorem Reachable.describedBy_normalize (h : a.Reachable) :
    a.database.DescribedBy a.database.normalize where
  keys := Database.keys_normalize h.sound.nodup_arena
  closed := Database.closed_normalize h.sound.nodup_arena h.sound.linked
  parented := Database.parented_normalize h.sound.nodup_arena
  recordCount := Database.recordCount_normalize h.sound.nodup_arena
  tree := Database.read_tree h.sound.nodup_arena h.sound.linked

theorem describedBy_normalize_orders : ∃ a, build .orders {} = .ok a ∧
    (a.after (.getOrCreateSchema "archive")).Reachable ∧
    (a.after (.getOrCreateSchema "archive")).database.DescribedBy
      (a.after (.getOrCreateSchema "archive")).database.normalize := by
  obtain ⟨a, ha⟩ := exists_build_orders
  have hreach : (a.after (.getOrCreateSchema "archive")).Reachable := .step (.build ha) trivial
  exact ⟨a, ha, hreach, hreach.describedBy_normalize⟩

end Assembly

end Catalog
