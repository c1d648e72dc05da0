import Catalog.Proofs.Mirror.Resolve
import Catalog.Proofs.Rebuild.Reach

/-!
Which databases can be rebuilt, told from the database and from the outline that it mirrors.
-/
namespace Catalog

namespace Database

/-- What refs and groups are linked to stands no later than they do, schema by schema. -/
def Ordered (db : Database) : Prop :=
  ∀ pre s post, db.schemas = pre ++ s :: post →
    (∀ r ∈ s.refs, ∀ e ∈ r.endpoints, ∃ s' ∈ pre ++ [s], ∃ t ∈ s'.tables, t.id = e.table) ∧
    ∀ g ∈ s.tableGroups, ∀ id ∈ g.tables, ∃ s' ∈ pre ++ [s], ∃ t ∈ s'.tables, t.id = id

/-- No member of a group stands, in its schema, after a table that has its name as an alias. -/
def Unshadowed (db : Database) : Prop :=
  ∀ g ∈ db.tableGroups, ∀ s ∈ db.schemas, ∀ pre t post, s.tables = pre ++ t :: post →
    t.id ∈ g.tables → ∀ u ∈ pre, u.aliasName ≠ some t.name

end Database

/-! Statements on paired lists. -/

section Paired

variable {α β : Type} {R : α → β → Prop} {l : List α} {l' : List β}

theorem forall_mem_iff_of_paired {P : α → Prop} {Q : β → Prop} (h : List.Forall₂ R l l')
    (hPQ : ∀ a b, R a b → (P a ↔ Q b)) : (∀ a ∈ l, P a) ↔ ∀ b ∈ l', Q b := by
  induction h with
  | nil => simp
  | cons hab _ ih => rw [List.forall_mem_cons, List.forall_mem_cons, hPQ _ _ hab, ih]

theorem paired_split {pre post : List α} {a : α} (h : List.Forall₂ R (pre ++ a :: post) l') :
    ∃ pre' b post', l' = pre' ++ b :: post' ∧ List.Forall₂ R pre pre' ∧ R a b := by
  induction pre generalizing l' with
  | nil =>
    cases h with
    | cons hab _ => exact ⟨[], _, _, rfl, .nil, hab⟩
  | cons a₀ pre ih =>
    cases h with
    | @cons _ b₀ _ _ hab hrest =>
      obtain ⟨pre', b, post', rfl, hpre, hb⟩ := ih hrest
      exact ⟨b₀ :: pre', b, post', rfl, .cons hab hpre, hb⟩

/-- Elements of paired lists correspond, as do the parts of the lists up to them. -/
theorem forall_split_iff_of_paired {P : List α → α → Prop} {Q : List β → β → Prop}
    (h : List.Forall₂ R l l')
    (hPQ : ∀ pre a pre' b, R a b → List.Forall₂ R (pre ++ [a]) (pre' ++ [b]) →
      (P pre a ↔ Q pre' b)) :
    (∀ pre a post, l = pre ++ a :: post → P pre a) ↔
      ∀ pre b post, l' = pre ++ b :: post → Q pre b := by
  constructor
  · rintro hP pre' b post' rfl
    obtain ⟨pre, a, post, rfl, hpre, hab⟩ := paired_split h.flip
    exact (hPQ pre a pre' b hab (paired_append hpre.flip (.cons hab .nil))).mp (hP pre a post rfl)
  · rintro hQ pre a post rfl
    obtain ⟨pre', b, post', rfl, hpre, hab⟩ := paired_split h
    exact (hPQ pre a pre' b hab (paired_append hpre (.cons hab .nil))).mpr (hQ pre' b post' rfl)

end Paired

namespace Decl.Outline

theorem ordered_withImpliedTags (c : Config) (o : Outline) :
    Ordered c (o.map (·.withImpliedTags)) ↔ o.Ordered c := by
  have halike := alike_withImpliedTags c o
  have hpaired : List.Forall₂ (fun s' s : Schema => s' = s.withImpliedTags)
      (o.map (·.withImpliedTags)) o :=
    List.forall₂_map_left_iff.mpr (List.forall₂_same.mpr fun _ _ => rfl)
  apply forall_split_iff_of_paired hpaired
  rintro pre' _ pre s rfl hsplit
  have hnames : (pre' ++ [s.withImpliedTags]).map (·.name) = (pre ++ [s]).map (·.name) :=
    map_eq_of_paired hsplit fun _ _ heq => by rw [heq]; rfl
  simp only [hnames, halike.tablePath?, halike.members_eq]
  exact Iff.rfl

theorem unshadowed_withImpliedTags (c : Config) (o : Outline) :
    Unshadowed c (o.map (·.withImpliedTags)) ↔ o.Unshadowed c := by
  have halike := alike_withImpliedTags c o
  simp only [Unshadowed, Returns, List.forall_mem_map, halike.tablePath?, halike.members_eq]
  exact Iff.rfl

end Decl.Outline

namespace Assembly.Mirrors

variable {c : Config} {project : DatabaseInfo} {x : Decl.Stage} {a : Assembly}

/-! Order. -/

/-- Some schemas hold a table exactly if the schema in its path is one of them. -/
theorem mem_names_iff (h : a.Mirrors c project x) {ss : List Schema}
    (hss : ∀ s ∈ ss, s ∈ a.database.schemas) {id : Id .table} {p : TablePath}
    (hp : (id, p) ∈ a.database.tablePaths) :
    (∃ s ∈ ss, ∃ t ∈ s.tables, t.id = id) ↔ p.schema ∈ ss.map (·.name) := by
  constructor
  · rintro ⟨s, hs, t, ht, rfl⟩
    have hpath := Database.mem_tablePaths.mpr ⟨s, hss s hs, t, ht, rfl, rfl⟩
    rw [(h.tablePath_eq_iff hp hpath).mp rfl]
    exact List.mem_map.mpr ⟨s, hs, rfl⟩
  · intro hmem
    obtain ⟨s, hs, hname⟩ := List.mem_map.mp hmem
    obtain ⟨s', hs', t, ht, rfl, rfl⟩ := Database.mem_tablePaths.mp hp
    have heq : s.name = s'.name := hname
    obtain rfl := h.eq_of_isNamed (hss s hs) hs' s.isNamed_name (heq ▸ s'.isNamed_name)
    exact ⟨s, hs, t, ht, rfl⟩

theorem ordered_iff (h : a.Mirrors c project x) :
    a.database.Ordered ↔ x.outline.Ordered c := by
  have hpaired := paired_imp_of_mem h.schemas fun s hs d _ hm => And.intro hm hs
  apply forall_split_iff_of_paired hpaired
  rintro pre s pre' d ⟨hm, -⟩ hsplit
  have hnames : (pre ++ [s]).map (·.name) = (pre' ++ [d]).map (·.name) :=
    map_eq_of_paired hsplit fun _ _ hs => congrArg (·.name) hs.1.info
  have hmem : ∀ u ∈ pre ++ [s], u ∈ a.database.schemas := by
    intro u hu
    obtain ⟨_, -, -, hu⟩ := exists_right_of_paired hsplit hu
    exact hu
  apply and_congr
  · apply forall_mem_iff_of_paired hm.refs
    intro r e hr
    apply forall_mem_iff_of_paired hr.endpoints
    intro f g he
    obtain ⟨p, hp, hpath⟩ := he.table
    rw [h.mem_names_iff hmem hpath, hp, ← hnames]
    simp
  · apply forall_mem_iff_of_paired hm.tableGroups
    intro g e hg
    apply forall_mem_iff_of_paired hg.tables
    intro id p hpath
    rw [h.mem_names_iff hmem hpath, ← hnames]

/-! Shadowing. -/

theorem tablePath?_of_findTable? (h : a.Mirrors c project x) {s : Schema}
    (hs : s ∈ a.database.schemas) {name : String} {t : Table} (ht : s.findTable? name = some t) :
    x.outline.tablePath? c (some s.name) name = some ⟨s.name, t.name⟩ := by
  have hschema : a.database.findSchema? s.name = some s := by
    apply find?_of_unique hs s.isNamed_name
    intro s' hs' hn
    exact h.eq_of_isNamed hs' hs hn s.isNamed_name
  have hlocate : a.database.locate (some s.name) name = .ok (some (s, t)) := by
    simp only [Database.locate, Option.getD_some, hschema, ht, Option.map_some]
  rcases h.locate_cases (some s.name) name with ⟨hl, -⟩ | ⟨hl, -⟩ | ⟨s', t', hl, hfinds⟩
  · cases hlocate.symm.trans hl
  · cases hlocate.symm.trans hl
  · cases hlocate.symm.trans hl
    exact hfinds.path

theorem tablePath?_self_iff (h : a.Mirrors c project x) {s : Schema}
    (hs : s ∈ a.database.schemas) {pre post : List Table} {t : Table}
    (hsplit : s.tables = pre ++ t :: post) :
    x.outline.tablePath? c (some s.name) t.name = some ⟨s.name, t.name⟩ ↔
      ∀ u ∈ pre, u.aliasName ≠ some t.name := by
  have hnodup := h.nodup_tableNames hs
  have ht : t ∈ s.tables := by simp [hsplit]
  rw [← Schema.findTable?_self_iff hsplit hnodup]
  refine ⟨?_, h.tablePath?_of_findTable? hs⟩
  intro hpath
  obtain ⟨u, hu⟩ : ∃ u, s.findTable? t.name = some u :=
    Option.isSome_iff_exists.mp (List.find?_isSome.mpr ⟨t, ht, (t.isNamed_iff _).mpr (.inl rfl)⟩)
  rw [h.tablePath?_of_findTable? hs hu] at hpath
  injection hpath with hpath
  injection hpath with _ hname
  rw [hu, h.eq_of_table_name hs (List.mem_of_find?_eq_some hu) ht hname]

theorem returns_iff (h : a.Mirrors c project x) {g : TableGroup} {d : Decl.TableGroup}
    (hg : g.Mirrors a.database c x.outline d) :
    (∀ s ∈ a.database.schemas, ∀ pre t post, s.tables = pre ++ t :: post → t.id ∈ g.tables →
      ∀ u ∈ pre, u.aliasName ≠ some t.name) ↔ x.outline.Returns c d := by
  constructor
  · intro hall p hp
    obtain ⟨id, hid, hpath⟩ := exists_left_of_paired hg.tables hp
    obtain ⟨s, hs, t, ht, rfl, rfl⟩ := Database.mem_tablePaths.mp hpath
    obtain ⟨pre, post, hsplit⟩ := List.append_of_mem ht
    exact (h.tablePath?_self_iff hs hsplit).mpr (hall s hs pre t post hsplit hid)
  · intro hreturns s hs pre t post hsplit hid
    obtain ⟨p, hp, hpath⟩ := exists_right_of_paired hg.tables hid
    have ht : t ∈ s.tables := by simp [hsplit]
    have hown := Database.mem_tablePaths.mpr ⟨s, hs, t, ht, rfl, rfl⟩
    obtain rfl := (h.tablePath_eq_iff hpath hown).mp rfl
    exact (h.tablePath?_self_iff hs hsplit).mp (hreturns _ hp)

theorem unshadowed_iff (h : a.Mirrors c project x) :
    a.database.Unshadowed ↔ x.outline.Unshadowed c := by
  have hgroups : a.database.Unshadowed ↔ ∀ s ∈ a.database.schemas, ∀ g ∈ s.tableGroups,
      ∀ s ∈ a.database.schemas, ∀ pre t post, s.tables = pre ++ t :: post → t.id ∈ g.tables →
        ∀ u ∈ pre, u.aliasName ≠ some t.name :=
    List.forall_mem_flatMap
  rw [hgroups]
  apply forall_mem_iff_of_paired h.schemas
  intro s d hm
  apply forall_mem_iff_of_paired hm.tableGroups
  intro g e hg
  exact h.returns_iff hg

end Assembly.Mirrors

end Catalog
