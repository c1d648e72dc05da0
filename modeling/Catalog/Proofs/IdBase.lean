import Catalog.Proofs.IdBase.Outputs
import Catalog.Proofs.IdBase.Tracking
import Catalog.Proofs.Numbering

/-!
The base of identifiers is an offset. As long as identifiers suffice from either base, a bundle is
accepted from both or rejected from both for one reason, and what is built differs in the numbers of
identifiers alone, each as far from one base as from the other.
-/
namespace Catalog

variable {p q : UInt32}

/-- An identifier that is led around the end of the range would come out below the base. -/
theorem Id.moves_of_le {k : Kind} {i : Id k} (hp : p.toNat ≤ i.toNat)
    (hq : q.toNat ≤ (i.shift (q - p)).toNat) : i.Moves p q := by
  have hshift : (i.shift (q - p)).toNat = (i.toNat + (q - p).toNat) % 2 ^ 32 :=
    UInt32.toNat_add i.val (q - p)
  have hdistance : (q - p).toNat = (2 ^ 32 - p.toNat + q.toNat) % 2 ^ 32 := UInt32.toNat_sub q p
  have hi : i.toNat < 2 ^ 32 := i.toNat_lt
  have hplt := p.toNat_lt
  have hqlt := q.toNat_lt
  unfold Moves
  omega

theorem Database.arena_shift {d : UInt32} (db : Database) (k : Kind) :
    (db.shift d).arena k = (db.arena k).map (·.shift d) := by
  cases k with
  | database => rfl
  | schema => simp only [arena, shift, Schema.shift, List.map_map, Function.comp_def]
  | table => simp only [arena, tables_shift, Table.shift, List.map_map, Function.comp_def]
  | field => simp only [arena, fields_shift, Field.shift, List.map_map, Function.comp_def]
  | index => simp only [arena, indexes_shift, Index.shift, List.map_map, Function.comp_def]
  | indexColumn =>
    simp only [arena, indexColumns, indexes_shift, List.flatMap_map, List.map_flatMap, Index.shift,
      IndexColumn.shift, List.map_map, Function.comp_def]
  | enum => simp only [arena, enums_shift, Enum.shift, List.map_map, Function.comp_def]
  | enumValue =>
    simp only [arena, enumValues, enums_shift, List.flatMap_map, List.map_flatMap, Enum.shift,
      EnumValue.shift, List.map_map, Function.comp_def]
  | ref => simp only [arena, refs_shift, Ref.shift, List.map_map, Function.comp_def]
  | endpoint =>
    simp only [arena, endpoints, refs_shift, List.flatMap_map, List.map_flatMap, Ref.endpoints,
      Ref.shift, Endpoint.shift, List.map_cons, List.map_nil]
  | tableGroup => simp only [arena, tableGroups_shift, TableGroup.shift, List.map_map,
      Function.comp_def]
  | tag => simp only [arena, tags_shift, Tag.shift, List.map_map, Function.comp_def]

variable {b : Decl.Bundle} {c : Config}

namespace Assembly

theorem moves_of_build {a : Assembly} (h : build b (c.withIdBase p) = .ok a)
    (h' : build b (c.withIdBase q) = .ok (a.shift (q - p))) (k : Kind) :
    ∀ i ∈ a.database.arena k, i.Moves p q := by
  intro i hi
  apply Id.moves_of_le (idBase_le_of_mem h hi)
  apply idBase_le_of_mem h'
  change i.shift (q - p) ∈ (a.database.shift (q - p)).arena k
  rw [Database.arena_shift]
  exact List.mem_map.mpr ⟨i, hi, rfl⟩

end Assembly

namespace Database

/-- Two builds from different bases have the same outcome up to the distance of the bases, unless
one of them runs out of identifiers. -/
theorem moved_of_build (b : Decl.Bundle) (c : Config) (p q : UInt32)
    (hp : ∀ r, build b (c.withIdBase p) = .error r → r.kind ≠ .idSpaceExhausted)
    (hq : ∀ r, build b (c.withIdBase q) = .error r → r.kind ≠ .idSpaceExhausted) :
    (∃ r, build b (c.withIdBase p) = .error r ∧ build b (c.withIdBase q) = .error r) ∨
    ∃ db db', build b (c.withIdBase p) = .ok db ∧ build b (c.withIdBase q) = .ok db' ∧
      db'.toExport = db.toExport ∧ db.normalize.Moved p q db'.normalize := by
  rcases Assembly.build_withIdBase b c p q with ⟨r, hkind, h | h⟩ | ⟨r, h, h'⟩ | ⟨a, h, h'⟩
  · exact absurd hkind (hp r (build_eq_error_iff.mpr h))
  · exact absurd hkind (hq r (build_eq_error_iff.mpr h))
  · exact .inl ⟨r, build_eq_error_iff.mpr h, build_eq_error_iff.mpr h'⟩
  · have hsound := (Assembly.Reachable.build h).sound
    refine .inr ⟨a.database, a.database.shift (q - p), build_eq_ok_iff.mpr ⟨a, h, rfl⟩,
      build_eq_ok_iff.mpr ⟨_, h', rfl⟩, a.database.toExport_shift, ?_⟩
    exact moved_normalize hsound.nodup_arena hsound.linked (Assembly.moves_of_build h h')

/-- Orders from the first base and from one near the end of the range. -/
theorem moved_of_build_orders : ∃ db db',
    build .orders (Config.withIdBase {} 1) = .ok db ∧
    build .orders (Config.withIdBase {} 4294967290) = .ok db' ∧
    db'.toExport = db.toExport ∧ db.normalize.Moved 1 4294967290 db'.normalize ∧
    db.fields.map (·.id.toNat) = [1, 2] ∧
    db'.fields.map (·.id.toNat) = [4294967290, 4294967291] := by
  have hbuilt : (build .orders (Config.withIdBase {} 1)).toOption.any
      (fun db => db.fields.map (·.id.toNat) = [1, 2]) = true := by
    decide +kernel
  have hbuilt' : (build .orders (Config.withIdBase {} 4294967290)).toOption.any
      (fun db => db.fields.map (·.id.toNat) = [4294967290, 4294967291]) = true := by
    decide +kernel
  obtain ⟨db, hdb, hfields⟩ := exists_build_of_any hbuilt
  obtain ⟨db', hdb', hfields'⟩ := exists_build_of_any hbuilt'
  rcases moved_of_build .orders {} 1 4294967290 (by simp [hdb]) (by simp [hdb']) with
    ⟨r, hr, -⟩ | ⟨e, e', he, he', hexport, hmoved⟩
  · rw [hdb] at hr
    cases hr
  · obtain rfl := Except.ok.inj (hdb.symm.trans he)
    obtain rfl := Except.ok.inj (hdb'.symm.trans he')
    exact ⟨db, db', hdb, hdb', hexport, hmoved, of_decide_eq_true hfields,
      of_decide_eq_true hfields'⟩

end Database

end Catalog
