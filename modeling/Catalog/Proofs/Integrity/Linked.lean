import Catalog.Proofs.Integrity.Told

/-!
Every link leads to an entity of the database, wherever construction leads. The links of an entity
are told by the numbers that it mentions, kind by kind.
-/
namespace Catalog

/-! The numbers that entities are linked to. -/

def Field.links (f : Field) (k : Kind) : List Nat :=
  f.endpoints.flatMap (·.number k) ++ f.enumId.toList.flatMap (·.number k)

def Table.links (t : Table) (k : Kind) : List Nat :=
  t.tags.flatMap (·.number k) ++ t.group.toList.flatMap (·.number k) ++ t.fields.flatMap (·.links k)

def Enum.links (e : Enum) (k : Kind) : List Nat :=
  e.fields.flatMap (·.number k)

def Endpoint.links (e : Endpoint) (k : Kind) : List Nat :=
  e.table.number k ++ e.fields.flatMap (·.number k)

def Ref.links (r : Ref) (k : Kind) : List Nat :=
  r.endpoints.flatMap (·.links k)

def TableGroup.links (g : TableGroup) (k : Kind) : List Nat :=
  g.tables.flatMap (·.number k)

def Tag.links (t : Tag) (k : Kind) : List Nat :=
  t.tables.flatMap (·.number k)

def Entity.links : Entity → Kind → List Nat
  | table t, k => t.links k
  | tag t, k => t.links k
  | enum e, k => e.links k
  | ref r, k => r.links k
  | tableGroup g, k => g.links k

def Schema.links (s : Schema) (k : Kind) : List Nat :=
  s.tables.flatMap (·.links k) ++ s.tags.flatMap (·.links k) ++ s.enums.flatMap (·.links k)
    ++ s.refs.flatMap (·.links k) ++ s.tableGroups.flatMap (·.links k)

def Database.links (db : Database) (k : Kind) : List Nat :=
  db.schemas.flatMap (·.links k)

theorem Id.mem_flatMap_number {k : Kind} {l : List (Id k)} {i : Id k} (hi : i ∈ l) :
    i.toNat ∈ l.flatMap (·.number k) :=
  List.mem_flatMap.mpr ⟨i, hi, by simp [number]⟩

theorem Id.mem_number {k k' : Kind} {i : Id k} {n : Nat} :
    n ∈ i.number k' ↔ k' = k ∧ n = i.toNat := by
  unfold number
  split <;> simp_all

/-! How changes of a database change the links. -/

section Links

variable {db : Database} {k : Kind} {ns : List Nat}

theorem Field.links_linkEndpoint (f : Field) (e : Endpoint) (k : Kind) :
    (f.linkEndpoint e).links k ⊆ f.links k ++ e.id.number k := by
  unfold linkEndpoint
  intro n hn
  split at hn
  · simp only [links, List.flatMap_append, List.flatMap_cons, List.flatMap_nil, List.mem_append,
      List.append_nil] at hn ⊢
    tauto
  · exact List.mem_append_left _ hn

theorem Table.links_mapFields {f : Field → Field} (t : Table)
    (hf : ∀ e ∈ t.fields, (f e).links k ⊆ e.links k ++ ns) :
    Table.links { t with fields := t.fields.map f } k ⊆ t.links k ++ ns := by
  intro n hn
  simp only [links, List.flatMap_map, List.mem_append, List.mem_flatMap] at hn ⊢
  rcases hn with (hn | hn) | ⟨e, he, hn⟩
  · exact .inl (.inl (.inl hn))
  · exact .inl (.inl (.inr hn))
  · rcases List.mem_append.mp (hf e he hn) with hn | hn
    · exact .inl (.inr ⟨e, he, hn⟩)
    · exact .inr hn

/-- The links of tables lead to an entity that is inserted at most. -/
theorem Entity.links_tie (e : Entity) (t : Table) (k : Kind) :
    (e.tie t).links k ⊆ t.links k ++ e.numbers k := by
  cases e with
  | ref r =>
    apply t.links_mapFields
    intro f _ n hn
    have hlinks := Field.links_linkEndpoint (f.linkEndpoint r.first) r.second k hn
    have hfirst := Field.links_linkEndpoint f r.first k
    simp only [numbers, Ref.numbers, Ref.endpoints, List.flatMap_cons, List.flatMap_nil,
      List.append_nil, List.mem_append] at hlinks ⊢
    rcases hlinks with hlinks | hlinks
    · rcases List.mem_append.mp (hfirst hlinks) with hlinks | hlinks <;> tauto
    · tauto
  | tableGroup g =>
    simp only [tie]
    split
    · intro n hn
      simp only [Table.links, numbers, List.mem_append, Option.toList_some, List.flatMap_cons,
        List.flatMap_nil, List.append_nil] at hn ⊢
      tauto
    · exact List.subset_append_left _ _
  | _ => exact List.subset_append_left _ _

theorem Schema.links_insert (s : Schema) (e : Entity) (k : Kind) :
    ((s.insert e).links k).Perm (s.links k ++ e.links k) := by
  rw [List.perm_iff_count]
  intro n
  cases e <;> simp [insert, links, Entity.links, List.count_append] <;> omega

namespace Database

theorem mem_links {n : Nat} : n ∈ db.links k ↔ ∃ s ∈ db.schemas, n ∈ s.links k :=
  List.mem_flatMap

theorem links_relink {f : Table → Table} {g : Enum → Enum}
    (hf : ∀ s ∈ db.schemas, ∀ t ∈ s.tables, (f t).links k ⊆ t.links k ++ ns)
    (hg : ∀ s ∈ db.schemas, ∀ e ∈ s.enums, (g e).links k ⊆ e.links k ++ ns) :
    (db.relink f g).links k ⊆ db.links k ++ ns := by
  intro n hn
  rw [mem_links] at hn
  obtain ⟨s', hs', hn⟩ := hn
  obtain ⟨s, hs, rfl⟩ := mem_relink.mp hs'
  rw [List.mem_append, mem_links]
  simp only [Schema.links, List.flatMap_map, List.mem_append, List.mem_flatMap] at hn ⊢
  rcases hn with (((⟨t, ht, hn⟩ | hn) | ⟨e, he, hn⟩) | hn) | hn
  · rcases List.mem_append.mp (hf s hs t ht hn) with hn | hn
    · exact .inl ⟨s, hs, .inl (.inl (.inl (.inl ⟨t, ht, hn⟩)))⟩
    · exact .inr hn
  · exact .inl ⟨s, hs, .inl (.inl (.inl (.inr hn)))⟩
  · rcases List.mem_append.mp (hg s hs e he hn) with hn | hn
    · exact .inl ⟨s, hs, .inl (.inl (.inr ⟨e, he, hn⟩))⟩
    · exact .inr hn
  · exact .inl ⟨s, hs, .inl (.inr hn)⟩
  · exact .inl ⟨s, hs, .inr hn⟩

theorem links_updateSchema (id : Id .schema) (e : Entity) :
    (db.updateSchema id (·.insert e)).links k ⊆ db.links k ++ e.links k := by
  intro n hn
  rw [mem_links] at hn
  obtain ⟨s', hs', hn⟩ := hn
  obtain ⟨s, hs, rfl⟩ := mem_updateSchema.mp hs'
  rw [List.mem_append, mem_links]
  split at hn
  · rcases List.mem_append.mp ((s.links_insert e k).subset hn) with hn | hn
    · exact .inl ⟨s, hs, hn⟩
    · exact .inr hn
  · exact .inl ⟨s, hs, hn⟩

theorem links_place (id : Id .schema) (e : Entity) :
    (db.place id e).links k ⊆ db.links k ++ e.numbers k ++ e.links k := by
  intro n hn
  rcases List.mem_append.mp (links_updateSchema id e hn) with hn | hn
  · apply List.mem_append_left
    exact links_relink (fun _ _ t _ => e.links_tie t k)
      (fun _ _ _ _ => List.subset_append_left _ _) hn
  · exact List.mem_append_right _ hn

theorem matchesEnum_iff {i : Id .enum} {f : Field} : db.matchesEnum i f = true ↔
    ∃ s e, db.schemaOfEnum? i = some s ∧ db.enum? i = some e ∧
      f.isOfEnum db.config.defaultSchemaName s.name e.name = true := by
  unfold matchesEnum
  split
  · rename_i s e hs he
    constructor
    · exact fun hf => ⟨s, e, hs, he, hf⟩
    · rintro ⟨s', e', hs', he', hf⟩
      rw [hs, Option.some.injEq] at hs'
      rw [he, Option.some.injEq] at he'
      rw [hs', he']
      exact hf
  · rename_i hnone
    constructor
    · intro hf
      cases hf
    · rintro ⟨s, e, hs, he, -⟩
      exact absurd he (hnone s e hs)

theorem mem_arena_of_matchesEnum {i : Id .enum} {f : Field} (h : db.matchesEnum i f = true) :
    i ∈ db.arena .enum := by
  obtain ⟨-, e, -, he, -⟩ := matchesEnum_iff.mp h
  have hid := List.find?_some (p := fun e : Enum => decide (e.id = i)) he
  exact List.mem_map.mpr ⟨e, List.mem_of_find?_eq_some he, of_decide_eq_true hid⟩

theorem mem_foldl_pushNew {α : Type} [DecidableEq α] {ys xs : List α} {x : α} :
    x ∈ ys.foldl pushNew xs ↔ x ∈ xs ∨ x ∈ ys := by
  induction ys generalizing xs with
  | nil => simp
  | cons y ys ih =>
    rw [List.foldl_cons, ih, mem_pushNew, List.mem_cons, or_assoc]

/-- Binding an enum links entities of the database. -/
theorem links_bindEnum (db : Database) (i : Id .enum) (k : Kind) :
    (db.bindEnum i).links k ⊆ db.links k ++ db.numbers k := by
  rw [bindEnum_eq]
  apply links_relink
  · intro s _ t _
    apply t.links_mapFields
    intro f _ n hn
    unfold linkEnum at hn
    split at hn
    · rename_i hmatch
      simp only [Field.links, List.mem_append, Option.toList_some, List.flatMap_cons,
        List.flatMap_nil, List.append_nil] at hn ⊢
      rcases hn with hn | hn
      · exact .inl (.inl hn)
      · obtain ⟨rfl, rfl⟩ := Id.mem_number.mp hn
        exact .inr (mem_arena.mp (mem_arena_of_matchesEnum hmatch))
    · exact List.mem_append_left _ hn
  · intro s _ e _ n hn
    unfold collectFields at hn
    split at hn
    · obtain ⟨j, hj, hn⟩ := List.mem_flatMap.mp hn
      rw [List.mem_append]
      rcases mem_foldl_pushNew.mp hj with hj | hj
      · exact .inl (List.mem_flatMap.mpr ⟨j, hj, hn⟩)
      · obtain ⟨rfl, rfl⟩ := Id.mem_number.mp hn
        obtain ⟨f, hf, rfl⟩ := List.mem_map.mp hj
        exact .inr (mem_arena.mp (List.mem_map.mpr ⟨f, List.mem_of_mem_filter hf, rfl⟩))
    · exact List.mem_append_left _ hn

end Database

end Links

/-! What is resolved is in the database. -/

section Resolved

variable {db : Database} {token : Span}

theorem Database.mem_of_locate {schema : Option String} {table : String} {s : Schema} {t : Table}
    (h : db.locate schema table = .ok (some (s, t))) : s ∈ db.schemas ∧ t ∈ s.tables := by
  unfold locate at h
  dsimp only at h
  split at h
  · cases h
  · rename_i s' hs'
    rw [Except.ok.injEq, Option.map_eq_some_iff] at h
    obtain ⟨t', ht', heq⟩ := h
    cases heq
    exact ⟨List.mem_of_find?_eq_some hs', List.mem_of_find?_eq_some ht'⟩

theorem Database.links_of_resolveEndpoint {d : Decl.Endpoint} {e : Resolved} {v : Endpoint}
    (h : db.resolveEndpoint token d = .ok e) (hv : v.Of e) (k : Kind) :
    v.links k ⊆ db.numbers k := by
  obtain ⟨s, t, ids, htable, hfields, rfl⟩ := resolveEndpoint_eq_ok h
  obtain ⟨hs, ht⟩ := mem_of_locate (locate_of_resolveTable htable)
  intro n hn
  rw [Endpoint.links, hv.table, hv.fields, List.mem_append, List.mem_flatMap] at hn
  rcases hn with hn | ⟨i, hi, hn⟩
  · obtain ⟨rfl, rfl⟩ := Id.mem_number.mp hn
    exact mem_numbers_table hs ht
  · obtain ⟨rfl, rfl⟩ := Id.mem_number.mp hn
    obtain ⟨name, -, f, hf, rfl, -⟩ := exists_right_of_paired (resolveFields_paired hfields) hi
    have hmem : f ∈ db.fields := List.mem_flatMap.mpr ⟨t, List.mem_flatMap.mpr ⟨s, hs, ht⟩, hf⟩
    exact mem_arena.mp (List.mem_map.mpr ⟨f, hmem, rfl⟩)

theorem Database.mem_of_resolveMembers {ms : List Decl.Member} {found ts : List Table}
    (h : db.resolveMembers token found ms = .ok ts) {t : Table} (ht : t ∈ ts) :
    t ∈ found ∨ ∃ s ∈ db.schemas, t ∈ s.tables := by
  induction ms generalizing found with
  | nil =>
    cases h
    exact .inl ht
  | cons m ms ih =>
    obtain ⟨s, u, htable, hrest⟩ := resolveMembers_cons h
    rcases ih hrest with hmem | hmem
    · split at hmem
      · exact .inl hmem
      · rcases List.mem_append.mp hmem with hmem | hmem
        · exact .inl hmem
        · rw [List.mem_singleton.mp hmem]
          exact .inr ⟨s, mem_of_locate (locate_of_resolveTable htable)⟩
    · exact .inr hmem

/-- The entities that a new one is linked to are in the database. -/
theorem Entity.LinkedIn.links {e : Entity} (h : e.LinkedIn db) (k : Kind) :
    e.links k ⊆ db.numbers k := by
  cases e with
  | table t =>
    have hnone : t.links k = [] := by
      rw [Table.links, h.tags, h.group, List.append_eq_nil_iff, List.flatMap_eq_nil_iff]
      refine ⟨rfl, fun f hf => ?_⟩
      rw [Field.links, (h.fields f hf).enumId, (h.fields f hf).endpoints]
      rfl
    rw [Entity.links, hnone]
    exact List.nil_subset _
  | tag t =>
    have hnone : t.links k = [] := by
      rw [Tag.links, show t.tables = [] from h]
      rfl
    rw [Entity.links, hnone]
    exact List.nil_subset _
  | enum e =>
    have hnone : e.links k = [] := by
      rw [Enum.links, show e.fields = [] from h]
      rfl
    rw [Entity.links, hnone]
    exact List.nil_subset _
  | ref r =>
    obtain ⟨d, first, second, hres, -, -, hfirst, hsecond⟩ := h
    obtain ⟨e₁, e₂, -, h₁, h₂, -⟩ := Database.resolveRef_eq_ok hres
    intro n hn
    obtain ⟨v, hv, hn⟩ := List.mem_flatMap.mp hn
    rcases List.mem_cons.mp hv with rfl | hv
    · exact Database.links_of_resolveEndpoint h₁ hfirst k hn
    · rw [List.mem_singleton.mp hv] at hn
      exact Database.links_of_resolveEndpoint h₂ hsecond k hn
  | tableGroup g =>
    obtain ⟨d, ts, hres, -, -, htables, -⟩ := h
    intro n hn
    rw [Entity.links, TableGroup.links, htables, List.mem_flatMap] at hn
    obtain ⟨i, hi, hn⟩ := hn
    obtain ⟨t, ht, rfl⟩ := List.mem_map.mp hi
    obtain ⟨rfl, rfl⟩ := Id.mem_number.mp hn
    rcases Database.mem_of_resolveMembers hres ht with hnone | ⟨s, hs, hts⟩
    · cases hnone
    · exact Database.mem_numbers_table hs hts

end Resolved

/-- Every link leads to an entity of the database. -/
def Database.Linked (db : Database) : Prop :=
  ∀ k, db.links k ⊆ db.numbers k

namespace Database.Linked

variable {db : Database}

theorem bindEnum (h : db.Linked) (i : Id .enum) : (db.bindEnum i).Linked := by
  intro k n hn
  rw [numbers_bindEnum]
  rcases List.mem_append.mp (links_bindEnum db i k hn) with hn | hn
  · exact h k hn
  · exact hn

theorem place (h : db.Linked) (hn : (db.numbers .schema).Nodup) {id : Id .schema}
    (hid : ∃ s ∈ db.schemas, s.id = id) {e : Entity} (he : e.LinkedIn db) :
    (db.place id e).Linked := by
  intro k n hmem
  rw [(numbers_place hn hid e k).mem_iff, List.mem_append]
  have hlinks := links_place id e hmem
  rw [List.mem_append, List.mem_append] at hlinks
  rcases hlinks with (hlinks | hlinks) | hlinks
  · exact .inl (h k hlinks)
  · exact .inr hlinks
  · exact .inl (he.links k hlinks)

/-! Where the links of entities lead, sort by sort. -/

variable {t : Table} {f : Field} {e : Enum} {v : Endpoint} {g : TableGroup} {tag : Tag}

theorem mem_of_schema (h : db.Linked) {s : Schema} (hs : s ∈ db.schemas) {k : Kind} {i : Id k}
    (hi : i.toNat ∈ s.links k) : i ∈ db.arena k :=
  mem_arena.mpr (h k (mem_links.mpr ⟨s, hs, hi⟩))

theorem mem_of_table (h : db.Linked) (ht : t ∈ db.tables) {k : Kind} {i : Id k}
    (hi : i.toNat ∈ t.links k) : i ∈ db.arena k := by
  obtain ⟨s, hs, ht⟩ := List.mem_flatMap.mp ht
  apply h.mem_of_schema hs
  simp only [Schema.links, List.append_assoc]
  exact List.mem_append_left _ (List.mem_flatMap.mpr ⟨t, ht, hi⟩)

theorem mem_of_field (h : db.Linked) (hf : f ∈ db.fields) {k : Kind} {i : Id k}
    (hi : i.toNat ∈ f.links k) : i ∈ db.arena k := by
  obtain ⟨t, ht, hf⟩ := List.mem_flatMap.mp hf
  exact h.mem_of_table ht (List.mem_append_right _ (List.mem_flatMap.mpr ⟨f, hf, hi⟩))

theorem tags (h : db.Linked) (ht : t ∈ db.tables) {i : Id .tag} (hi : i ∈ t.tags) :
    i ∈ db.arena .tag := by
  apply h.mem_of_table ht
  rw [Table.links, List.append_assoc]
  exact List.mem_append_left _ (Id.mem_flatMap_number hi)

theorem group (h : db.Linked) (ht : t ∈ db.tables) {i : Id .tableGroup} (hi : t.group = some i) :
    i ∈ db.arena .tableGroup := by
  apply h.mem_of_table ht
  rw [Table.links, List.append_assoc]
  apply List.mem_append_right
  exact List.mem_append_left _ (Id.mem_flatMap_number (Option.mem_toList.mpr hi))

theorem endpoints (h : db.Linked) (hf : f ∈ db.fields) {i : Id .endpoint} (hi : i ∈ f.endpoints) :
    i ∈ db.arena .endpoint :=
  h.mem_of_field hf (List.mem_append_left _ (Id.mem_flatMap_number hi))

theorem enumId (h : db.Linked) (hf : f ∈ db.fields) {i : Id .enum} (hi : f.enumId = some i) :
    i ∈ db.arena .enum :=
  h.mem_of_field hf
    (List.mem_append_right _ (Id.mem_flatMap_number (Option.mem_toList.mpr hi)))

theorem enumFields (h : db.Linked) (he : e ∈ db.enums) {i : Id .field} (hi : i ∈ e.fields) :
    i ∈ db.arena .field := by
  obtain ⟨s, hs, he⟩ := List.mem_flatMap.mp he
  apply h.mem_of_schema hs
  have hlinks : i.toNat ∈ s.enums.flatMap (·.links .field) :=
    List.mem_flatMap.mpr ⟨e, he, Id.mem_flatMap_number hi⟩
  simp only [Schema.links, List.mem_append]
  exact .inl (.inl (.inr hlinks))

theorem mem_of_endpoint (h : db.Linked) (hv : v ∈ db.endpoints) {k : Kind} {i : Id k}
    (hi : i.toNat ∈ v.links k) : i ∈ db.arena k := by
  obtain ⟨r, hr, hv⟩ := List.mem_flatMap.mp hv
  obtain ⟨s, hs, hr⟩ := List.mem_flatMap.mp hr
  apply h.mem_of_schema hs
  have hlinks : i.toNat ∈ s.refs.flatMap (·.links k) :=
    List.mem_flatMap.mpr ⟨r, hr, List.mem_flatMap.mpr ⟨v, hv, hi⟩⟩
  simp only [Schema.links, List.mem_append]
  exact .inl (.inr hlinks)

theorem endpointTable (h : db.Linked) (hv : v ∈ db.endpoints) : v.table ∈ db.arena .table :=
  h.mem_of_endpoint hv (List.mem_append_left _ (Id.mem_number.mpr ⟨rfl, rfl⟩))

theorem endpointFields (h : db.Linked) (hv : v ∈ db.endpoints) {i : Id .field}
    (hi : i ∈ v.fields) : i ∈ db.arena .field :=
  h.mem_of_endpoint hv (List.mem_append_right _ (Id.mem_flatMap_number hi))

theorem groupTables (h : db.Linked) (hg : g ∈ db.tableGroups) {i : Id .table} (hi : i ∈ g.tables) :
    i ∈ db.arena .table := by
  obtain ⟨s, hs, hg⟩ := List.mem_flatMap.mp hg
  apply h.mem_of_schema hs
  exact List.mem_append_right _ (List.mem_flatMap.mpr ⟨g, hg, Id.mem_flatMap_number hi⟩)

theorem tagTables (h : db.Linked) (hg : tag ∈ db.tags) {i : Id .table} (hi : i ∈ tag.tables) :
    i ∈ db.arena .table := by
  obtain ⟨s, hs, hg⟩ := List.mem_flatMap.mp hg
  apply h.mem_of_schema hs
  have hlinks : i.toNat ∈ s.tags.flatMap (·.links .table) :=
    List.mem_flatMap.mpr ⟨tag, hg, Id.mem_flatMap_number hi⟩
  simp only [Schema.links, List.mem_append]
  exact .inl (.inl (.inl (.inr hlinks)))

end Database.Linked

theorem Assembly.Numbered.linked_change {a b : Assembly} (h : a.Numbered)
    (hl : a.database.Linked) {m : Remit} (hab : Change m a b) : b.database.Linked := by
  cases hab with
  | spend hab =>
    rw [hab.database]
    exact hl
  | mark => exact hl
  | opens hab =>
    intro k n hn
    rw [hab.database] at hn ⊢
    rw [Database.numbers_addSchema hab.empty, List.mem_append]
    left
    apply hl k
    rw [Database.mem_links] at hn ⊢
    obtain ⟨s, hs, hn⟩ := hn
    rcases Database.mem_addSchema.mp hs with hs | rfl
    · exact ⟨s, hs, hn⟩
    · rw [hab.empty] at hn
      cases hn
  | inserts hab =>
    have hplaced := hl.place (h.nodup .schema) ⟨_, hab.schema, rfl⟩ hab.fits.linked
    rw [hab.database]
    rcases a.database.commit_cases _ _ with ⟨-, heq⟩ | ⟨en, -, -, heq⟩
    · rw [heq]
      exact hplaced
    · rw [heq]
      exact hplaced.bindEnum en.id
  | bindEnum i => exact hl.bindEnum i

end Catalog
