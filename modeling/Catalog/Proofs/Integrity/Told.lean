import Catalog.Proofs.Change.Reach
import Catalog.Proofs.Mirror.Route

/-!
Entities can be told apart wherever construction leads: by their numbers among all of their kind,
and by their names among those of one sort in a schema.
-/
namespace Catalog

/-! Numbers. -/

namespace Database

variable {db : Database}

theorem numbers_place (hn : (db.numbers .schema).Nodup) {id : Id .schema}
    (hid : ∃ s ∈ db.schemas, s.id = id) (e : Entity) (k : Kind) :
    ((db.place id e).numbers k).Perm (db.numbers k ++ e.numbers k) := by
  have hrelink : ∀ k, (db.relink e.tie fun e => e).numbers k = db.numbers k :=
    numbers_relink e.agrees_tie fun _ => ⟨rfl, fun _ => rfl⟩
  have hid' : ∃ s ∈ (db.relink e.tie fun e => e).schemas, s.id = id := by
    obtain ⟨s, hs, hsid⟩ := hid
    exact ⟨_, mem_relink.mpr ⟨s, hs, rfl⟩, hsid⟩
  rw [place, ← hrelink k]
  rw [← hrelink .schema] at hn
  exact numbers_updateSchema hn hid' e k

theorem numbers_bindEnum (i : Id .enum) (k : Kind) : (db.bindEnum i).numbers k = db.numbers k := by
  obtain ⟨f, g, heq, hf, hg⟩ := db.bindEnum_eq_relink i
  rw [heq, numbers_relink (fun t => (hf t).1) hg]

theorem numbers_commit (hn : (db.numbers .schema).Nodup) {id : Id .schema}
    (hid : ∃ s ∈ db.schemas, s.id = id) (e : Entity) (k : Kind) :
    ((db.commit id e).numbers k).Perm (db.numbers k ++ e.numbers k) := by
  rcases db.commit_cases id e with ⟨-, heq⟩ | ⟨en, -, -, heq⟩
  · rw [heq]
    exact numbers_place hn hid e k
  · rw [heq, numbers_bindEnum]
    exact numbers_place hn hid e k

theorem numbers_addSchema {s : Schema}
    (hs : s = { toSchemaInfo := s.toSchemaInfo, id := s.id, token := s.token }) (k : Kind) :
    (db.addSchema s).numbers k = db.numbers k ++ s.id.number k := by
  have hown : s.numbers k = s.id.number k := by
    rw [hs]
    simp [Schema.numbers]
  simp [numbers, addSchema, hown]

end Database

namespace Assembly

/-- No number is used twice, and the next one of a kind is new. -/
structure Numbered (a : Assembly) : Prop where
  nodup : ∀ k, (a.database.numbers k).Nodup
  below : ∀ k, ∀ n ∈ a.database.numbers k, n < a.ids.next k

/-- The numbers in use are those from before and some that came next. -/
structure Adds (a b : Assembly) (ns : Kind → List Nat) : Prop where
  ids : a.ids.Precedes b.ids
  numbers : ∀ k, (b.database.numbers k).Perm (a.database.numbers k ++ ns k)
  nodup : ∀ k, (ns k).Nodup
  bounds : ∀ k, ∀ n ∈ ns k, a.ids.next k ≤ n ∧ n < b.ids.next k

variable {a b : Assembly} {ns : Kind → List Nat}

theorem adds_of_supplies (hids : a.ids.Supplies b.ids ns)
    (hperm : ∀ k, (b.database.numbers k).Perm (a.database.numbers k ++ ns k)) : Adds a b ns :=
  ⟨hids.precedes, hperm, hids.nodup, fun _ _ hn => hids.mem_bounds hn⟩

theorem adds_of_same (hle : a.ids.Precedes b.ids)
    (hsame : ∀ k, b.database.numbers k = a.database.numbers k) : Adds a b fun _ => [] where
  ids := hle
  numbers := by
    intro k
    rw [hsame k, List.append_nil]
  nodup _ := .nil
  bounds _ _ hn := by cases hn

/-- Numbers that come next are told apart from those before. -/
theorem Numbered.of_adds (h : a.Numbered) (hab : Adds a b ns) : b.Numbered where
  nodup := by
    intro k
    rw [(hab.numbers k).nodup_iff, List.nodup_append]
    refine ⟨h.nodup k, hab.nodup k, ?_⟩
    rintro n hn _ hnew rfl
    exact Nat.not_le_of_lt (h.below k n hn) (hab.bounds k n hnew).1
  below := by
    intro k n hn
    rcases List.mem_append.mp ((hab.numbers k).mem_iff.mp hn) with hold | hnew
    · exact Nat.lt_of_lt_of_le (h.below k n hold) (hab.ids.next_le k)
    · exact (hab.bounds k n hnew).2

theorem Numbered.adds (h : a.Numbered) {m : Remit} (hab : Change m a b) : ∃ ns, Adds a b ns := by
  cases hab with
  | spend hab => exact ⟨_, adds_of_same hab.ids fun k => by rw [hab.database]⟩
  | mark => exact ⟨_, adds_of_same (.refl _) fun _ => rfl⟩
  | opens hab =>
    refine ⟨_, adds_of_supplies hab.ids ?_⟩
    intro k
    rw [hab.database, Database.numbers_addSchema hab.empty]
  | inserts hab =>
    refine ⟨_, adds_of_supplies hab.ids ?_⟩
    intro k
    rw [hab.database]
    exact Database.numbers_commit (h.nodup .schema) ⟨_, hab.schema, rfl⟩ _ k
  | bindEnum i => exact ⟨_, adds_of_same (.refl _) fun k => Database.numbers_bindEnum i k⟩

theorem Numbered.change (h : a.Numbered) {m : Remit} (hab : Change m a b) : b.Numbered := by
  obtain ⟨ns, hadds⟩ := h.adds hab
  exact h.of_adds hadds

end Assembly

/-! Names. -/

/-- Children of one sort have different names in a schema, as have the fields of a table and the
values of an enum. -/
structure Schema.Distinct (s : Schema) : Prop where
  children : ∀ sort, (s.names sort).Nodup
  fields : ∀ t ∈ s.tables, (t.fields.map (·.name)).Nodup
  values : ∀ e ∈ s.enums, (e.values.map (·.name)).Nodup

/-- No two schemas share a name, nor do two children of one sort in a schema. -/
structure Database.Named (db : Database) : Prop where
  apart : db.schemas.Pairwise fun s t => s.collides t.toSchemaInfo = false
  distinct : ∀ s ∈ db.schemas, s.Distinct

theorem Table.Agrees.name {t t' : Table} (h : t.Agrees t') : t.name = t'.name :=
  congrArg (·.name) h.declared

theorem Enum.Agrees.name {e e' : Enum} (h : e.Agrees e') : e.name = e'.name :=
  congrArg (·.name) h.declared

namespace Schema

variable {s : Schema} {f : Table → Table} {g : Enum → Enum}

theorem names_relink (hf : ∀ t, (f t).Agrees t) (hg : ∀ e, (g e).Agrees e) (sort : ChildSort) :
    Schema.names { s with tables := s.tables.map f, enums := s.enums.map g } sort
      = s.names sort := by
  cases sort <;> simp [names, Function.comp_def, (hf _).name, (hg _).name]

theorem Distinct.relink (h : s.Distinct) (hf : ∀ t, (f t).Agrees t) (hg : ∀ e, (g e).Agrees e) :
    Distinct { s with tables := s.tables.map f, enums := s.enums.map g } where
  children := by
    intro sort
    rw [names_relink hf hg]
    exact h.children sort
  fields := by
    rintro t' ht'
    obtain ⟨t, ht, rfl⟩ := List.mem_map.mp ht'
    have hnames := congrArg (List.map (·.2)) (hf t).fields
    rw [List.map_map, List.map_map] at hnames
    change ((f t).fields.map ((·.2) ∘ fun f => (f.id, f.name))).Nodup
    rw [hnames]
    exact h.fields t ht
  values := by
    rintro e' he'
    obtain ⟨e, he, rfl⟩ := List.mem_map.mp he'
    have hnames := congrArg (fun d => d.values.map (·.name)) (hg e).declared
    simp only [Enum.declared, List.map_map] at hnames
    change ((g e).values.map ((·.name) ∘ fun v => v.declared)).Nodup
    rw [hnames]
    exact h.values e he

theorem names_insert (e : Entity) (sort : ChildSort) :
    (s.insert e).names sort = s.names sort ++ e.labels sort := by
  cases e <;> cases sort <;> simp [insert, names, Entity.labels]

theorem Distinct.insert (h : s.Distinct) {e : Entity} (he : e.Distinct)
    (hlabels : ∀ sort, ∀ name ∈ e.labels sort, name ∉ s.names sort) : (s.insert e).Distinct where
  children := by
    intro sort
    rw [names_insert, List.nodup_append]
    refine ⟨h.children sort, ?_, ?_⟩
    · cases e <;> cases sort <;> simp [Entity.labels]
    · rintro name hold _ hnew rfl
      exact hlabels sort name hnew hold
  fields := by
    intro t ht
    rcases mem_tables_insert.mp ht with ht | rfl
    · exact h.fields t ht
    · exact he
  values := by
    intro en hen
    cases e with
    | enum en' =>
      rcases List.mem_append.mp hen with hen | hen
      · exact h.values en hen
      · rw [List.mem_singleton.mp hen]
        exact he
    | _ => exact h.values en hen

end Schema

namespace Database

variable {db : Database}

theorem Named.of_heads {db' : Database} (h : db.Named)
    (hheads : db'.schemas.map (·.head) = db.schemas.map (·.head))
    (hdistinct : ∀ s ∈ db'.schemas, s.Distinct) : db'.Named where
  apart := by
    have happart : (db.schemas.map (·.head)).Pairwise fun s t => s.1.collides t.1 = false :=
      List.pairwise_map.mpr h.apart
    rw [← hheads, List.pairwise_map] at happart
    exact happart
  distinct := hdistinct

theorem Named.relink (h : db.Named) {f : Table → Table} {g : Enum → Enum}
    (hf : ∀ t, (f t).Agrees t) (hg : ∀ e, (g e).Agrees e) : (db.relink f g).Named := by
  apply h.of_heads (heads_relink f g)
  intro s' hs'
  obtain ⟨s, hs, rfl⟩ := mem_relink.mp hs'
  exact (h.distinct s hs).relink hf hg

theorem Named.bindEnum (h : db.Named) (i : Id .enum) : (db.bindEnum i).Named := by
  obtain ⟨f, g, heq, hf, hg⟩ := db.bindEnum_eq_relink i
  rw [heq]
  exact h.relink (fun t => (hf t).1) hg

theorem Named.place (h : db.Named) {s : Schema} {e : Entity} (hfits : e.Fits db s)
    (hunique : ∀ t ∈ db.schemas, t.id = s.id → t = s) : (db.place s.id e).Named := by
  have hsame : ∀ e : Enum, e.Agrees e := fun _ => ⟨rfl, fun _ => rfl⟩
  apply h.of_heads (by rw [Database.place, heads_updateSchema, heads_relink])
  intro s' hs'
  obtain ⟨t', ht', rfl⟩ := mem_updateSchema.mp hs'
  obtain ⟨t, ht, rfl⟩ := mem_relink.mp ht'
  have hdistinct := (h.distinct t ht).relink e.agrees_tie hsame
  split
  · rename_i hid
    apply hdistinct.insert hfits.distinct
    intro sort
    rw [Schema.names_relink e.agrees_tie hsame, hunique t ht hid]
    exact hfits.labels sort
  · exact hdistinct

theorem Named.addSchema (h : db.Named) {s : Schema}
    (hs : s = { toSchemaInfo := s.toSchemaInfo, id := s.id, token := s.token })
    (hapart : ∀ t ∈ db.schemas, t.collides s.toSchemaInfo = false) : (db.addSchema s).Named where
  apart := by
    rw [Database.addSchema, List.pairwise_append]
    refine ⟨h.apart, List.pairwise_singleton _ _, ?_⟩
    intro t ht u hu
    rw [List.mem_singleton.mp hu]
    exact hapart t ht
  distinct := by
    intro t ht
    rcases mem_addSchema.mp ht with ht | rfl
    · exact h.distinct t ht
    · rw [hs]
      constructor
      · rintro (_ | _) <;> exact .nil
      · exact fun _ ht => by cases ht
      · exact fun _ he => by cases he

end Database

theorem Assembly.Numbered.named_change {a b : Assembly} (h : a.Numbered) (hn : a.database.Named)
    {m : Remit} (hab : Change m a b) : b.database.Named := by
  cases hab with
  | spend hab =>
    rw [hab.database]
    exact hn
  | mark => exact hn.of_heads rfl hn.distinct
  | opens hab =>
    rw [hab.database]
    exact hn.addSchema hab.empty hab.apart
  | inserts hab =>
    have hplaced := hn.place hab.fits fun t ht hid =>
      Database.eq_of_schema_id (h.nodup .schema) ht hab.schema hid
    rw [hab.database]
    rcases a.database.commit_cases _ _ with ⟨-, heq⟩ | ⟨en, -, -, heq⟩
    · rw [heq]
      exact hplaced
    · rw [heq]
      exact hplaced.bindEnum en.id
  | bindEnum i => exact hn.bindEnum i

end Catalog
