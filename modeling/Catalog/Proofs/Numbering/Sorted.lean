import Catalog.Proofs.Integrity.Reach
import Catalog.Proofs.Integrity.Schemas

/-!
Numbers go up. What comes later in a schema has a greater number than what comes before it, among
what is of the same kind, since entities come last in their lists and take the numbers that come
next. The binding of tags is no exception: the tags that it adds come after all others.
-/
namespace Catalog

/-- Of each kind, the numbers in a schema go up. -/
def Schema.Sorted (s : Schema) : Prop :=
  ∀ k, (s.numbers k).Pairwise (· < ·)

structure Database.Sorted (db : Database) : Prop where
  schemas : (db.schemas.map (·.id.toNat)).Pairwise (· < ·)
  children : ∀ s ∈ db.schemas, s.Sorted

theorem Allocator.Supplies.ascending {a a' : Allocator} {ns : Kind → List Nat}
    (h : a.Supplies a' ns) (k : Kind) : (ns k).Pairwise (· < ·) := by
  obtain ⟨need, -, hns⟩ := h
  rw [hns k]
  exact List.pairwise_lt_range'

/-- Numbers that come next are greater than those that have been issued. -/
theorem Allocator.Supplies.pairwise_append {a a' : Allocator} {ns : Kind → List Nat}
    (h : a.Supplies a' ns) {k : Kind} {l : List Nat} (hl : l.Pairwise (· < ·))
    (hbelow : ∀ n ∈ l, n < a.next k) : (l ++ ns k).Pairwise (· < ·) := by
  rw [List.pairwise_append]
  refine ⟨hl, h.ascending k, ?_⟩
  intro n hn n' hn'
  exact Nat.lt_of_lt_of_le (hbelow n hn) (h.mem_bounds hn').1

theorem Database.mem_numbers_of_schema {db : Database} {s : Schema} (hs : s ∈ db.schemas)
    {k : Kind} {n : Nat} (hn : n ∈ s.numbers k) : n ∈ db.numbers k :=
  List.mem_append_right _ (List.mem_flatMap.mpr ⟨s, hs, hn⟩)

namespace Schema

variable {s : Schema}

theorem numbers_relink {f : Table → Table} {g : Enum → Enum} (hf : ∀ t, (f t).Agrees t)
    (hg : ∀ e, (g e).Agrees e) (k : Kind) : (s.relink f g).numbers k = s.numbers k := by
  simp only [relink, numbers, List.flatMap_map, (hf _).numbers, (hg _).numbers]

theorem Sorted.relink (h : s.Sorted) {f : Table → Table} {g : Enum → Enum}
    (hf : ∀ t, (f t).Agrees t) (hg : ∀ e, (g e).Agrees e) : (s.relink f g).Sorted := by
  intro k
  rw [numbers_relink hf hg]
  exact h k

theorem numbers_tag (s : Schema) : s.numbers .tag = s.tags.map (·.id.toNat) := by
  simp [numbers, Table.numbers, Index.numbers, Enum.numbers, Ref.numbers, Id.number,
    flatMap_nothing, List.map_eq_flatMap]

theorem meets_bindTags_sorted (h : s.Sorted) {a : Allocator} (htold : TagsTold s.tags a)
    (hts : ∀ t ∈ s.tables, t.tags = []) :
    s.bindTags.Meets a (fun s' _ => s'.Sorted) (fun _ _ => True) := by
  apply (s.meets_bindTags htold hts).mono
  · rintro s' a' ⟨hdrew, -, hnumbers⟩ k
    have hsupplies : a.Supplies a' (tagRange a s.implied.length) := ⟨_, hdrew, fun _ => rfl⟩
    rw [hnumbers k]
    by_cases hk : k = .tag
    · subst hk
      apply hsupplies.pairwise_append (h .tag)
      intro n hn
      rw [numbers_tag] at hn
      obtain ⟨g, hg, rfl⟩ := List.mem_map.mp hn
      exact htold.below g hg
    · have hnone : tagRange a s.implied.length k = [] := by rw [tagRange, if_neg hk]; rfl
      rw [hnone, List.append_nil]
      exact h k
  · exact fun _ _ _ => trivial

end Schema

namespace Assembly

variable {m : Remit} {a b : Assembly}

theorem sorted_start (c : Config) (project : DatabaseInfo) :
    (start c project).database.Sorted :=
  ⟨.nil, fun _ hs => by cases hs⟩

theorem Numbered.lt_next_of_schema (hn : a.Numbered) {s : Schema} (hs : s ∈ a.database.schemas)
    {k : Kind} {n : Nat} (h : n ∈ s.numbers k) : n < a.ids.next k :=
  hn.below k n (Database.mem_numbers_of_schema hs h)

/-- A change adds one schema at the end, or none. -/
theorem Numbered.sorted_schemas_change (hn : a.Numbered)
    (h : (a.database.schemas.map (·.id.toNat)).Pairwise (· < ·)) (hab : Change m a b) :
    (b.database.schemas.map (·.id.toNat)).Pairwise (· < ·) := by
  have hheads : ∀ db : Database, db.schemas.map (·.id.toNat) =
      (db.schemas.map (·.head)).map fun p => p.2.toNat := by
    intro db
    rw [List.map_map]
    rfl
  cases hab with
  | spend hab =>
    rw [hab.database]
    exact h
  | mark => exact h
  | @opens s _ hab =>
    have hadded : b.database.schemas.map (·.id.toNat) =
        a.database.schemas.map (·.id.toNat) ++ s.id.number .schema := by
      rw [hab.database, Database.addSchema, List.map_append]
      rfl
    rw [hadded]
    apply hab.ids.pairwise_append h
    intro n hmem
    obtain ⟨t, ht, rfl⟩ := List.mem_map.mp hmem
    exact hn.below .schema _ (Database.mem_arena.mp (List.mem_map.mpr ⟨t, ht, rfl⟩))
  | inserts hab =>
    rw [hheads, hab.database, Database.heads_commit, ← hheads]
    exact h
  | bindEnum i =>
    rw [hheads, Database.heads_bindEnum, ← hheads]
    exact h

/-- An entity comes last in its schema, with the numbers that came next. -/
theorem Inserts.sorted {s : Schema} {e : Entity} (hab : a.Inserts s e b) (hn : a.Numbered)
    (h : ∀ t ∈ a.database.schemas, t.Sorted) : ∀ t ∈ b.database.schemas, t.Sorted := by
  have hsame : ∀ e : Enum, e.Agrees e := fun _ => ⟨rfl, fun _ => rfl⟩
  intro u hu
  obtain ⟨f, g, heq, hf, hg⟩ := a.database.commit_eq_relink s.id e
  rw [hab.database, heq] at hu
  obtain ⟨t', ht', rfl⟩ := Database.mem_relink.mp hu
  have htied : t'.Sorted := by
    rcases hn.schemas_place hab.schema ht' with rfl | ⟨t, ht, rfl⟩
    · intro k
      rw [Schema.numbers_insert, Schema.numbers_relink e.agrees_tie hsame]
      apply hab.ids.pairwise_append (h s hab.schema k)
      exact fun _ hmem => hn.lt_next_of_schema hab.schema hmem
    · exact (h t ht).relink e.agrees_tie hsame
  exact htied.relink hf hg

theorem Numbered.sorted_change (hn : a.Numbered) (h : a.database.Sorted) (hab : Change m a b) :
    b.database.Sorted where
  schemas := hn.sorted_schemas_change h.schemas hab
  children := by
    cases hab with
    | spend hab => exact hab.database ▸ h.children
    | mark => exact h.children
    | opens hab =>
      intro s' hs'
      rw [hab.database] at hs'
      rcases Database.mem_addSchema.mp hs' with hs' | rfl
      · exact h.children s' hs'
      · intro k
        rw [hab.empty, Schema.numbers]
        simpa using hab.ids.ascending k
    | inserts hab => exact hab.sorted hn h.children
    | bindEnum i =>
      intro s' hs'
      rw [Database.bindEnum_eq] at hs'
      obtain ⟨s, hs, rfl⟩ := Database.mem_relink.mp hs'
      exact (h.children s hs).relink (a.database.agrees_linkEnum i)
        (a.database.agrees_collectFields i)

theorem Sound.sorted_binds (hs : a.Sound) (h : a.database.Sorted) (hab : Binds a b) :
    b.database.Sorted where
  schemas := by
    have hids : b.database.schemas.map (·.id.toNat) = a.database.schemas.map (·.id.toNat) :=
      map_eq_of_paired (hs.bound hab).schemas fun s' s hbound => by rw [hbound.same]
    rw [hids]
    exact h.schemas
  children := by
    have hmeets : bindTags.Meets a (fun _ b => ∀ s ∈ b.database.schemas, s.Sorted)
        (fun _ _ => True) := by
      unfold bindTags
      apply Attempt.Meets.bind (P := fun _ b => ∀ s ∈ b.database.schemas, s.Sorted)
      · apply Assembly.meets_insert
        apply meets_bindSchemas_all (fun s hs' => hs.tagsTold hs') hab.untagged
        intro s hs' _ htold
        exact Schema.meets_bindTags_sorted (h.children s hs') htold (hab.untagged s hs')
      · exact fun _ _ hb => Attempt.meets_pure hb
    exact hmeets.of_run_ok hab.run

/-- The order of numbers is the order of construction wherever that leads. -/
theorem Reachable.sorted (h : a.Reachable) : a.database.Sorted :=
  h.keep_sound sorted_start (fun _ _ hs => hs.numbered.sorted_change) fun _ _ => Sound.sorted_binds

end Assembly

end Catalog
