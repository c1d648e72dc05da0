import Catalog.Proofs.Rebuild.Redeclared

/-!
How far back links reach. A name leads to the same table in the first schemas of an outline as in
all of them, provided that the schema of the table is among the first ones. So records nested in a
schema find what they name exactly if it stands no later than they do.
-/
namespace Catalog.Decl

variable {c : Config} {o q post : Outline} {p : TablePath}

namespace Outline

/-- What refs and groups refer to stands no later than they do, schema by schema. -/
def Ordered (c : Config) (o : Outline) : Prop :=
  ∀ pre s post, o = pre ++ s :: post →
    (∀ r ∈ s.refs, ∀ e ∈ r.endpoints, ∀ p, o.tablePath? c e.schemaName e.tableName = some p →
      p.schema ∈ (pre ++ [s]).map (·.name)) ∧
    ∀ g ∈ s.tableGroups, ∀ p ∈ o.members c g, p.schema ∈ (pre ++ [s]).map (·.name)

variable {schemaName : Option String} {tableName : String}

theorem locate?_append {found : Schema × Table}
    (h : q.locate? c schemaName tableName = some found) (post : Outline) :
    Outline.locate? (q ++ post) c schemaName tableName = some found := by
  obtain ⟨s, t⟩ := found
  obtain ⟨hs, ht⟩ := locate?_eq_some_iff.mp h
  apply locate?_eq_some_iff.mpr
  refine ⟨?_, ht⟩
  unfold schema? at hs ⊢
  rw [List.find?_append, hs]
  rfl

theorem locate?_eq_of_isSome (h : (q.tablePath? c schemaName tableName).isSome)
    (post : Outline) : q.locate? c schemaName tableName
      = Outline.locate? (q ++ post) c schemaName tableName := by
  rw [tablePath?, Option.isSome_map] at h
  obtain ⟨found, hl⟩ := Option.isSome_iff_exists.mp h
  rw [hl, locate?_append hl]

/-- A table is found among the first schemas exactly if its schema is one of them. -/
theorem isSome_tablePath?_iff (apart : (q ++ post).Pairwise Schema.Apart)
    (hp : Outline.tablePath? (q ++ post) c schemaName tableName = some p) :
    (q.tablePath? c schemaName tableName).isSome ↔ p.schema ∈ q.map (·.name) := by
  constructor
  · intro h
    rw [tablePath?, ← locate?_eq_of_isSome h] at hp
    obtain ⟨⟨s, t⟩, hl, rfl⟩ := Option.map_eq_some_iff.mp hp
    have hs := (locate?_eq_some_iff.mp hl).1
    exact List.mem_map.mpr ⟨s, List.mem_of_find?_eq_some hs, rfl⟩
  · intro h
    obtain ⟨u, hu, huname⟩ := List.mem_map.mp h
    obtain ⟨⟨s, t⟩, hl, rfl⟩ := Option.map_eq_some_iff.mp hp
    obtain ⟨hs, ht⟩ := locate?_eq_some_iff.mp hl
    have hmem : s ∈ q := by
      rcases List.mem_append.mp (List.mem_of_find?_eq_some hs) with hs | hs
      · exact hs
      · have hname : u.name = s.name := huname
        have hne := (List.pairwise_append.mp apart).2.2 u hu s hs s.name
        exact absurd ⟨hname ▸ u.isNamed_name, s.isNamed_name⟩ hne
    have hsq : q.schema? (schemaName.getD c.defaultSchemaName) = some s := by
      have hn := List.find?_some (p := fun s : Schema =>
        s.isNamed (schemaName.getD c.defaultSchemaName)) hs
      obtain ⟨pre, rest, rfl⟩ := List.append_of_mem hmem
      exact schema?_of_split (List.pairwise_append.mp apart).1 hn
    rw [tablePath?, locate?_eq_some_iff.mpr ⟨hsq, ht⟩]
    rfl

/-- A ref whose tables are among the first schemas is connected there. -/
theorem Connects.of_append {r : Ref} (hr : Outline.Connects (q ++ post) c r)
    (h : ∀ e ∈ r.endpoints, (q.tablePath? c e.schemaName e.tableName).isSome) :
    q.Connects c r := by
  have resolves : ∀ e ∈ r.endpoints, q.Resolves c e.toEndpointInfo ∧
      q.cover c e.toEndpointInfo = Outline.cover (q ++ post) c e.toEndpointInfo := by
    intro e he
    have hfields : ∀ name, q.fieldPath? c e.toEndpointInfo name
        = Outline.fieldPath? (q ++ post) c e.toEndpointInfo name := by
      intro name
      rw [fieldPath?, fieldPath?, locate?_eq_of_isSome (h e he) post]
    have hcover : q.cover c e.toEndpointInfo
        = Outline.cover (q ++ post) c e.toEndpointInfo :=
      List.map_congr_left fun name _ => hfields name
    have hres := hr.resolves he
    refine ⟨⟨h e he, ?_, hcover ▸ hres.nodup⟩, hcover⟩
    intro name hname
    rw [hfields]
    exact hres.fields name hname
  obtain ⟨e₁, e₂, hends, -, -, hlen, hne⟩ := hr
  obtain ⟨h₁, hcover₁⟩ := resolves e₁ (by simp [hends])
  obtain ⟨h₂, hcover₂⟩ := resolves e₂ (by simp [hends])
  refine ⟨e₁, e₂, hends, h₁, h₂, hlen, ?_⟩
  rw [hcover₁, hcover₂]
  exact hne

/-! Redeclared records. -/

theorem mem_endpoints_redeclare {r : Ref} {e' : Endpoint} :
    e' ∈ r.toExport.redeclare.endpoints ↔
      ∃ e ∈ r.endpoints, ({ toEndpointInfo := e.toEndpointInfo } : Endpoint) = e' := by
  simp [Ref.toExport, Export.Ref.redeclare]

theorem mem_tables_redeclare {g : TableGroup} {m : Member} :
    m ∈ (g.toExport c o).redeclare.tables ↔
      ∃ p ∈ o.members c g, ({ name := p.table, schemaName := some p.schema } : Member) = m := by
  simp [TableGroup.toExport, Export.TableGroup.redeclare]

theorem redeclared_of_append (hsplit : o = q ++ post) : o.redeclared c
    = q.map (·.redeclared c o) ++ post.map (·.redeclared c o) := by
  rw [redeclared, ← List.map_append, ← hsplit]

/-- The first schemas, redeclared, hold the tables of those schemas. -/
theorem isSome_tablePath?_redeclared_iff (hsplit : o = q ++ post)
    (hsound : (o.redeclared c).Sound c)
    (hp : o.tablePath? c schemaName tableName = some p) :
    (Outline.tablePath? (q.map (·.redeclared c o)) c schemaName tableName).isSome ↔
      p.schema ∈ q.map (·.name) := by
  have happend := redeclared_of_append (c := c) hsplit
  have hnames : (q.map (·.redeclared c o)).map (·.name) = q.map (·.name) := by
    rw [List.map_map]
    rfl
  have apart := hsound.apart
  rw [← (alike_redeclared c o).tablePath?, happend] at hp
  rw [happend] at apart
  rw [← hnames]
  exact isSome_tablePath?_iff apart hp

/-- The links of a redeclared schema, told by those of the schema itself. -/
theorem linksWithin_redeclared_iff (hsplit : o = q ++ post) {s : Schema} (hs : s ∈ o)
    (hsound : (o.redeclared c).Sound c) (hun : o.Unshadowed c) :
    (s.redeclared c o).LinksWithin c (q.map (·.redeclared c o)) ↔
      (∀ r ∈ s.refs, ∀ e ∈ r.endpoints, ∀ p,
        o.tablePath? c e.schemaName e.tableName = some p → p.schema ∈ q.map (·.name)) ∧
      ∀ g ∈ s.tableGroups, ∀ p ∈ o.members c g, p.schema ∈ q.map (·.name) := by
  have reaches : ∀ {schemaName : Option String} {tableName : String} {p : TablePath},
      o.tablePath? c schemaName tableName = some p →
        ((Outline.tablePath? (q.map (·.redeclared c o)) c schemaName tableName).isSome ↔
          p.schema ∈ q.map (·.name)) :=
    fun hp => isSome_tablePath?_redeclared_iff hsplit hsound hp
  have hs' : s.redeclared c o ∈ o.redeclared c := List.mem_map.mpr ⟨s, hs, rfl⟩
  have happend := redeclared_of_append (c := c) hsplit
  rw [Schema.LinksWithin, s.refs_redeclared, s.tableGroups_redeclared, List.forall_mem_map,
    List.forall_mem_map]
  apply and_congr
  · apply forall₂_congr
    intro r hr
    have hconnects := hsound.connects _ hs' r.toExport.redeclare
      (s.refs_redeclared c o ▸ List.mem_map.mpr ⟨r, hr, rfl⟩)
    constructor
    · intro hwithin e he p hp
      have hmem := mem_endpoints_redeclare.mpr ⟨e, he, rfl⟩
      exact (reaches hp).mp (hwithin.resolves hmem).table
    · intro hall
      rw [happend] at hconnects
      apply hconnects.of_append
      intro e' he'
      have hsome := (hconnects.resolves he').table
      obtain ⟨e, he, rfl⟩ := mem_endpoints_redeclare.mp he'
      obtain ⟨p, hp⟩ := Option.isSome_iff_exists.mp hsome
      rw [← happend, (alike_redeclared c o).tablePath?] at hp
      exact (reaches hp).mpr (hall e he p hp)
  · apply forall₂_congr
    intro g hg
    constructor
    · intro hgathers p hp
      have hmem := mem_tables_redeclare.mpr ⟨p, hp, rfl⟩
      exact (reaches (hun s hs g hg p hp)).mp (hgathers _ hmem)
    · intro hall m hm
      obtain ⟨p, hp, rfl⟩ := mem_tables_redeclare.mp hm
      exact (reaches (hun s hs g hg p hp)).mpr (hall p hp)

theorem nested_redeclared_iff (hsound : (o.redeclared c).Sound c) (hun : o.Unshadowed c) :
    (∀ pre s post, o.redeclared c = pre ++ s :: post → s.LinksWithin c (pre ++ [s])) ↔
      o.Ordered c := by
  constructor
  · intro h pre s post hsplit
    have hfirst : o = (pre ++ [s]) ++ post := by simp [hsplit]
    apply (linksWithin_redeclared_iff hfirst (by simp [hsplit]) hsound hun).mp
    rw [List.map_append]
    apply h _ _ (post.map (·.redeclared c o))
    have hmap := congrArg (List.map (·.redeclared c o)) hsplit
    rw [List.map_append, List.map_cons] at hmap
    exact hmap
  · intro h pre' s' post' hsplit
    obtain ⟨pre, rest, ho, rfl, hrest⟩ := List.map_eq_append_iff.mp hsplit
    obtain ⟨s, post, rfl, rfl, rfl⟩ := List.map_eq_cons_iff.mp hrest
    have hfirst : o = (pre ++ [s]) ++ post := by simp [ho]
    have hlinks := (linksWithin_redeclared_iff hfirst (by simp [ho]) hsound hun).mpr
      (h pre s post ho)
    rw [List.map_append] at hlinks
    exact hlinks

end Outline

end Catalog.Decl
