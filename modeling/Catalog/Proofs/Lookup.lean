import Catalog.Export
import Catalog.Proofs.Mirror
import Catalog.Proofs.Outline.Growth

/-!
Finding entities by identifier. Where no two entities of a kind share one, looking up the
identifier of an entity finds that entity, and its owner is the one that holds it.
-/
namespace Catalog

/-- What a list gives different values is found by its value. -/
theorem find?_of_nodup {α β : Type} [DecidableEq β] {f : α → β} {l : List α} {a : α}
    (h : (l.map f).Nodup) (ha : a ∈ l) : l.find? (f · = f a) = some a :=
  find?_of_unique ha (decide_eq_true rfl) fun _ hb heq =>
    List.inj_on_of_nodup_map h hb ha (of_decide_eq_true heq)

/-- An owner is found by any of its children. -/
theorem find?_owner_of_nodup {ω χ γ : Type} [DecidableEq γ] {os : List ω} {cs : ω → List χ}
    {f : χ → γ} (h : ((os.flatMap cs).map f).Nodup) {o : ω} {c : χ} (ho : o ∈ os) (hc : c ∈ cs o) :
    os.find? (fun o => (cs o).any (f · = f c)) = some o := by
  rw [List.map_flatMap] at h
  apply find?_of_unique ho (List.any_eq_true.mpr ⟨c, hc, decide_eq_true rfl⟩)
  intro o' ho' hany
  obtain ⟨c', hc', heq⟩ := List.any_eq_true.mp hany
  exact (eq_of_nodup_flatMap h ho' hc' ho hc (of_decide_eq_true heq)).1

/-- What a list gives different values has its place by its value. -/
theorem index_eq_of_nodup {α β : Type} {f : α → β} {l : List α} (h : (l.map f).Nodup) {i j : Nat}
    {a b : α} (ha : l[i]? = some a) (hb : l[j]? = some b) (hab : f a = f b) : i = j := by
  have hlt : i < (l.map f).length := by
    rw [List.length_map]
    exact (List.getElem?_eq_some_iff.mp ha).1
  apply (List.getElem?_inj hlt h).mp
  rw [List.getElem?_map, List.getElem?_map, ha, hb]
  exact congrArg some hab

namespace Database

variable {db : Database} {s : Schema} {t : Table} {e : Enum}

theorem table?_of_mem (hn : (db.arena .table).Nodup) (ht : t ∈ db.tables) :
    db.table? t.id = some t :=
  find?_of_nodup hn ht

theorem tag?_of_mem (hn : (db.arena .tag).Nodup) {g : Tag} (hg : g ∈ db.tags) :
    db.tag? g.id = some g :=
  find?_of_nodup hn hg

theorem enum?_of_mem (hn : (db.arena .enum).Nodup) (he : e ∈ db.enums) :
    db.enum? e.id = some e :=
  find?_of_nodup hn he

theorem schemaOfTable?_of_mem (hn : (db.arena .table).Nodup) (hs : s ∈ db.schemas)
    (ht : t ∈ s.tables) : db.schemaOfTable? t.id = some s :=
  find?_owner_of_nodup hn hs ht

theorem schemaOfEnum?_of_mem (hn : (db.arena .enum).Nodup) (hs : s ∈ db.schemas)
    (he : e ∈ s.enums) : db.schemaOfEnum? e.id = some s :=
  find?_owner_of_nodup hn hs he

theorem qualifiedTableName?_of_mem (hn : (db.arena .table).Nodup) (hs : s ∈ db.schemas)
    (ht : t ∈ s.tables) :
    db.qualifiedTableName? t.id = some (qualifiedName (some s.name) t.name) := by
  have htables : (s.tables.map (·.id)).Nodup := by
    rw [arena, tables, List.map_flatMap, List.nodup_flatMap] at hn
    exact hn.1 s hs
  have hfind : s.tables.find? (·.id = t.id) = some t := find?_of_nodup htables ht
  rw [qualifiedTableName?, schemaOfTable?_of_mem hn hs ht]
  simp only [Option.bind_eq_bind, Option.bind_some, hfind]
  rfl

/-- A table as a member of a group is found by its identifier. -/
theorem member?_of_mem (hn : (db.arena .table).Nodup) (hs : s ∈ db.schemas) (ht : t ∈ s.tables) :
    db.member? t.id = some { tableName := t.name, schemaName := s.name } := by
  have ht' : t ∈ db.tables := List.mem_flatMap.mpr ⟨s, hs, ht⟩
  simp [member?, schemaOfTable?_of_mem hn hs ht, table?_of_mem hn ht']

end Database

end Catalog
