import Catalog.Proofs.Change.Insert
import Catalog.Proofs.Store.Filing

/-!
Inserting an entity into a store: it is drafted and checked as in the tree, and what is filed leaves
the store of the tree that the entity has been inserted into.
-/
namespace Catalog

namespace Access

variable {α β γ δ ε : Type}

/-- Where `P` holds of a sound tree, work on its store ends as construction does, with the store of
the tree that construction leads to. -/
def Realizes (P : Assembly → Prop) (x : Access β) (y : Construction α) (f : α → β) : Prop :=
  ∀ a : Assembly, a.Sound → P a → Ends x a.layout ((y.run a).1.map f) (y.run a).2.layout

/-- What is drafted alike and filed as it is committed is inserted alike. -/
theorem ends_insert_of_drafts {a : Assembly} {draft : Database → Drafting δ}
    {commit : Database → δ → Database} {x : Access γ} {g : δ → γ} {add : γ → Access β} {f : δ → β}
    (hx : Drafts x a.database (draft a.database) g)
    (hadd : ∀ v ids, (Assembly.insert draft commit).run a = (.ok v, ⟨commit a.database v, ids⟩) →
      Ends (add (g v)) (Assembly.layout ⟨a.database, ids⟩) (.ok (f v))
        (Assembly.layout ⟨commit a.database v, ids⟩)) :
    Ends (x >>= add) a.layout (((Assembly.insert draft commit).run a).1.map f)
      ((Assembly.insert draft commit).run a).2.layout := by
  have hends := hx a.ids
  rcases hd : (draft a.database).run a.ids with ⟨r | v, ids⟩
  · rw [hd] at hends
    rw [Assembly.insert_error hd]
    exact hends.bind_error add
  · rw [hd] at hends
    have hrun : (Assembly.insert draft commit).run a = _ := Assembly.insert_ok hd
    rw [hrun]
    exact hends.bind (hadd v ids hrun)

end Access

namespace Store

open Access

/-! Checks. -/

theorem sameEndpoints_stored (r other : Ref) : Stored.sameEndpoints
    (r.endpoints.map (·.stored r.id)) (other.endpoints.map (·.stored other.id))
      = r.connectsSame other := by
  simp only [Stored.sameEndpoints, Ref.connectsSame, Ref.endpoints, Endpoint.sameFields,
    Endpoint.stored, List.map_cons, List.map_nil, List.any_cons, List.any_nil, List.all_cons,
    List.all_nil, Bool.and_true]

section Checks

variable {db : Database} (hn : ∀ k, (db.arena k).Nodup) {id : Id .schema} {s : Schema}
include hn

theorem ends_row_of_database {k : Kind} {r : Stored k} (hr : r ∈ db.rows k) (ids : Allocator) :
    Ends (row r.key) (Assembly.layout ⟨db, ids⟩) (.ok r) (Assembly.layout ⟨db, ids⟩) :=
  ends_row_layout (a := ⟨db, ids⟩) hn hr

theorem drafts_checkName (hs : db.schema? id = some s) {sort : ChildSort} {k : Kind} {α : Type}
    {l : List α} {f : α → Stored k} {label : α → String} (hl : ∀ x ∈ l, f x ∈ db.rows k)
    {siblings : Stored.Schema → List (Id k)}
    (hsiblings : siblings (s.stored db.id) = l.map fun x => (f x).key)
    (hnames : s.names sort = l.map label) {taken : Stored k → Bool} {name : String}
    (htaken : ∀ x, taken (f x) = decide (label x = name)) (token : Span) :
    Drafts (checkName id sort siblings taken name token) db
      (Assembly.checkName db id sort name token) fun _ => () := by
  intro ids
  obtain ⟨hmem, rfl⟩ := Assembly.mem_schemas_schema? hs
  have hfind := ends_find? (a := ⟨db, ids⟩) hn hl taken
  simp only [htaken] at hfind
  unfold checkName Assembly.checkName
  rw [hs]
  apply (ends_row_of_database hn (Database.mem_rows_schema hmem) ids).bind
  rw [hsiblings]
  apply hfind.bind
  dsimp only
  rw [hnames]
  cases hf : l.find? fun x => label x = name with
  | none =>
    rw [if_neg]
    · exact ends_pure _ _
    · intro hmem
      obtain ⟨x, hx, hname⟩ := List.mem_map.mp hmem
      exact absurd (decide_eq_true hname) (List.find?_eq_none.mp hf x hx)
  | some x =>
    rw [if_pos (List.mem_map.mpr ⟨x, List.mem_of_find?_eq_some hf,
      of_decide_eq_true (List.find?_some (p := fun x => label x = name) hf)⟩)]
    exact Ends.get (Ends.bind (ends_pure _ _) (ends_throw _ _))

theorem drafts_checkRef (hs : db.schema? id = some s) (r : Ref) :
    Drafts (checkRef id (r.endpoints.map (·.stored r.id)) r.token) db
      (Assembly.checkRef db id r) fun _ => () := by
  intro ids
  obtain ⟨hmem, rfl⟩ := Assembly.mem_schemas_schema? hs
  have hsearch : Ends ((s.refs.map (·.id)).findM? fun i : Id .ref => do
      pure (Stored.sameEndpoints (r.endpoints.map (·.stored r.id)) (← rows (← row i).endpoints)))
      (Assembly.layout ⟨db, ids⟩)
      (.ok ((s.refs.find? fun other => r.connectsSame other).map (·.id)))
      (Assembly.layout ⟨db, ids⟩) := by
    apply ends_findM?
    intro other hother
    have hrow := ends_row_of_database hn (Database.mem_rows_ref hmem hother) ids
    have hends := ends_rows (a := ⟨db, ids⟩) hn (k := .endpoint)
      (f := Endpoint.stored other.id) fun _ he => Database.mem_rows_endpoint hmem hother he
    rw [← sameEndpoints_stored]
    exact hrow.bind (hends.bind (ends_pure _ _))
  unfold checkRef Assembly.checkRef
  rw [hs]
  apply (ends_row_of_database hn (Database.mem_rows_schema hmem) ids).bind
  apply hsearch.bind
  dsimp only
  cases hf : s.refs.find? fun other => r.connectsSame other with
  | none =>
    rw [if_neg]
    · exact ends_pure _ _
    · rw [Bool.not_eq_true, List.any_eq_false]
      exact List.find?_eq_none.mp hf
  | some other =>
    rw [if_pos]
    · exact ends_throw _ _
    · exact List.any_eq_true.mpr ⟨other, List.mem_of_find?_eq_some hf,
        List.find?_some (p := fun other => r.connectsSame other) hf⟩

theorem drafts_checkUngrouped (hl : db.Linked) {ts : List Table}
    (hts : ∀ t ∈ ts, ∃ s ∈ db.schemas, t ∈ s.tables) (token : Span) :
    Drafts (checkUngrouped (ts.map (·.id)) token) db (Assembly.checkUngrouped db ts token)
      fun _ => () := by
  intro ids
  have hsearch : Ends ((ts.map (·.id)).findSomeM? fun i : Id .table => do
      pure ((← row i).group.map fun g => (i, g))) (Assembly.layout ⟨db, ids⟩)
      (.ok (Database.firstGrouped? ts)) (Assembly.layout ⟨db, ids⟩) := by
    apply ends_findSomeM?
    intro t ht
    obtain ⟨s, hs, hst⟩ := hts t ht
    exact (ends_row_of_database hn (Database.mem_rows_table hs hst) ids).bind (ends_pure _ _)
  unfold checkUngrouped Assembly.checkUngrouped
  apply hsearch.bind
  cases hf : Database.firstGrouped? ts with
  | none => exact ends_pure _ _
  | some found =>
    obtain ⟨t, ht, hgroup⟩ := List.exists_of_findSome?_eq_some hf
    obtain ⟨i, hi, rfl⟩ := Option.map_eq_some_iff.mp hgroup
    obtain ⟨s, hs, hst⟩ := hts t ht
    have hmem : t ∈ db.tables := List.mem_flatMap.mpr ⟨s, hs, hst⟩
    obtain ⟨g, hg, rfl⟩ := List.mem_map.mp (hl.group hmem hi)
    obtain ⟨s', hs', hsg⟩ := List.mem_flatMap.mp hg
    have hgroup? : db.tableGroup? g.id = some g := find?_of_nodup (hn .tableGroup) hg
    apply (ends_qualifiedTableName (a := ⟨db, ids⟩) hn hs hst).bind
    apply (ends_row_of_database hn (Database.mem_rows_tableGroup hs' hsg) ids).bind
    dsimp only
    rw [Database.qualifiedTableName?_of_mem (hn .table) hs hst, hgroup?]
    exact ends_throw _ _

end Checks

/-! Drafting, checking and filing. -/

section Push

variable {a b : Assembly} {id : Id .schema} {s : Schema} {e : Entity}

theorem commit_eq_place (db : Database) (id : Id .schema) (he : ∀ en, e ≠ .enum en) :
    db.commit id e = db.place id e := by
  rcases db.commit_cases id e with ⟨-, heq⟩ | ⟨en, hen, -⟩
  · exact heq
  · exact absurd hen (he en)

theorem nodup_place_of_inserts (ha : a.Sound) (h : a.Inserts s e b) (k : Kind) :
    ((a.database.place s.id e).arena k).Nodup := by
  have hnodup := (ha.change (.inserts h (m := .full) trivial)).nodup_arena k
  rw [h.database] at hnodup
  rcases a.database.commit_cases s.id e with ⟨-, heq⟩ | ⟨en, -, -, heq⟩
  · rw [heq] at hnodup
    exact hnodup
  · rw [heq, Database.arena_eq_of_numbers (Database.numbers_bindEnum en.id k)] at hnodup
    exact hnodup

/-- What is drafted alike, and filed as far as it fits, is inserted alike. -/
theorem ends_push {β γ δ : Type} (ha : a.Sound) {draft : Database → Drafting δ}
    {commit : Database → δ → Database} {entity : δ → Entity}
    (hmeets : (Assembly.insert draft commit).Meets a (fun v b => a.Inserts s (entity v) b)
      fun _ b => a.Spent b)
    {x : Access γ} {g : δ → γ} {add : γ → Access β} {f : δ → β}
    (hx : Drafts x a.database (draft a.database) g)
    (hadd : ∀ v ids, (entity v).Fits a.database s →
      (∀ k, ((a.database.place s.id (entity v)).arena k).Nodup) →
      Ends (add (g v)) (Assembly.layout ⟨a.database, ids⟩) (.ok (f v))
        (Assembly.layout ⟨commit a.database v, ids⟩)) :
    Ends (x >>= add) a.layout (((Assembly.insert draft commit).run a).1.map f)
      ((Assembly.insert draft commit).run a).2.layout := by
  apply ends_insert_of_drafts hx
  intro v ids hrun
  have hinserts := hmeets.of_run_ok hrun
  exact hadd v ids hinserts.fits (nodup_place_of_inserts ha hinserts)

theorem realizes_pushTable (id : Id .schema) (d : Decl.Table) :
    Realizes (Assembly.HasSchema id) (pushTable id d) (Assembly.pushTable id d) (·.id) := by
  intro a ha hid
  obtain ⟨s, hs⟩ := hid.schema?
  obtain ⟨hmem, rfl⟩ := Assembly.mem_schemas_schema? hs
  have hn := ha.nodup_arena
  have hassoc : pushTable s.id d = (do
      let draft ← drafted (Stored.draftTable s.id d)
      checkName s.id .table (·.tables) (·.name = draft.table.name) draft.table.name
        draft.table.token
      pure draft) >>= addTable s.id := by
    simp only [pushTable, bind_assoc, pure_bind]
  rw [hassoc, Stored.draftTable_eq]
  apply ends_push ha (Assembly.meets_pushTable hs d)
  · apply (drafts_drafted _ _ _).bind
    intro t
    apply (drafts_checkName hn hs (f := Table.stored s.id)
      (fun _ ht => Database.mem_rows_table hmem ht) rfl rfl (fun _ => rfl) _).bind
    exact fun _ => drafts_pure _ t (Table.draft s.id)
  · intro t ids _ hnodup
    have hplace : a.database.addTable s.id t = a.database.place s.id (.table t) :=
      commit_eq_place _ _ (e := .table t) (by simp)
    rw [hplace]
    exact ends_addTable (a := ⟨a.database, ids⟩) hn hid hnodup

theorem realizes_newTag (id : Id .schema) (d : Decl.Tag) :
    Realizes (Assembly.HasSchema id) (do pushTag id (← drafted (Stored.draftTag id d)))
      (Assembly.pushTag id d) (·.id) := by
  intro a ha hid
  obtain ⟨s, hs⟩ := hid.schema?
  obtain ⟨hmem, rfl⟩ := Assembly.mem_schemas_schema? hs
  have hn := ha.nodup_arena
  have hassoc : (do pushTag s.id (← drafted (Stored.draftTag s.id d))) = (do
      let t ← drafted (Stored.draftTag s.id d)
      checkName s.id .tag (·.tags) (·.name = t.name) t.name t.token
      pure t) >>= addTag s.id := by
    simp only [pushTag, bind_assoc, pure_bind]
  rw [hassoc]
  apply ends_push (g := Tag.stored s.id) ha (Assembly.meets_pushTag hs d)
  · apply (drafts_issue _ fun i => Tag.stored s.id
      { toTagInfo := d.toTagInfo, id := i, token := d.token }).bind
    intro i
    apply (drafts_checkName hn hs (f := Tag.stored s.id)
      (fun _ ht => Database.mem_rows_tag hmem ht) rfl rfl (fun _ => rfl) _).bind
    exact fun _ => drafts_pure _ _ (Tag.stored s.id)
  · intro t ids _ hnodup
    have hplace : a.database.addTag s.id t = a.database.place s.id (.tag t) :=
      commit_eq_place _ _ (e := .tag t) (by simp)
    rw [hplace]
    exact ends_addTag (a := ⟨a.database, ids⟩) hn hid hnodup

theorem realizes_pushRef (id : Id .schema) (d : Decl.Ref) :
    Realizes (Assembly.HasSchema id) (pushRef id d) (Assembly.pushRef id d) (·.id) := by
  intro a ha hid
  obtain ⟨s, hs⟩ := hid.schema?
  obtain ⟨hmem, rfl⟩ := Assembly.mem_schemas_schema? hs
  have hn := ha.nodup_arena
  have hassoc : pushRef s.id d = (do
      let ends ← resolveRef d
      let draft ← drafted (Stored.draftRef s.id d [ends.1, ends.2])
      checkRef s.id draft.endpoints draft.ref.token
      pure draft) >>= addRef s.id := by
    simp only [pushRef, bind_assoc, pure_bind]
  rw [hassoc]
  apply ends_push (g := Ref.draft s.id) ha (Assembly.meets_pushRef hs d)
  · apply Drafts.read (f := fun ends => ends)
    · intro ids
      have hsame : (a.database.resolveRef d).map (fun ends => ends) = a.database.resolveRef d := by
        cases a.database.resolveRef d <;> rfl
      rw [hsame]
      exact ends_resolveRef (a := ⟨a.database, ids⟩) hn d
    · rintro ⟨first, second⟩ -
      dsimp only
      rw [Stored.draftRef_eq]
      apply (drafts_drafted _ _ _).bind
      intro r
      apply (drafts_checkRef hn hs r).bind
      exact fun _ => drafts_pure _ r (Ref.draft s.id)
  · intro r ids hfits hnodup
    have hplace : a.database.addRef s.id r = a.database.place s.id (.ref r) :=
      commit_eq_place _ _ (e := .ref r) (by simp)
    have hproper : r.Proper a.database := Ref.ResolvedIn.proper hfits.linked
    rw [hplace]
    exact ends_addRef (a := ⟨a.database, ids⟩) hn hid hproper hnodup

theorem realizes_pushTableGroup (id : Id .schema) (d : Decl.TableGroup) :
    Realizes (Assembly.HasSchema id) (pushTableGroup id d) (Assembly.pushTableGroup id d)
      (·.id) := by
  intro a ha hid
  obtain ⟨s, hs⟩ := hid.schema?
  obtain ⟨hmem, rfl⟩ := Assembly.mem_schemas_schema? hs
  have hn := ha.nodup_arena
  have hassoc : pushTableGroup s.id d = (do
      let tables ← resolveMembers d.token [] d.tables
      let g ← drafted (Stored.draftTableGroup s.id d tables)
      checkName s.id .tableGroup (·.tableGroups) (·.name = g.name) g.name g.token
      checkUngrouped g.tables g.token
      pure g) >>= addTableGroup s.id := by
    simp only [pushTableGroup, bind_assoc, pure_bind]
  rw [hassoc]
  apply ends_push (g := TableGroup.stored s.id) ha (Assembly.meets_pushTableGroup hs d)
  · apply Drafts.read (f := List.map (·.id))
    · exact fun ids => ends_resolveMembers (a := ⟨a.database, ids⟩) hn d.token [] d.tables
    · intro ts hts
      apply (drafts_issue _ fun i => TableGroup.stored s.id
        { toTableGroupInfo := d.toTableGroupInfo, id := i, token := d.token,
          tables := ts.map (·.id) }).bind
      intro i
      apply (drafts_checkName hn hs (f := TableGroup.stored s.id)
        (fun _ hg => Database.mem_rows_tableGroup hmem hg) rfl rfl (fun _ => rfl) _).bind
      intro _
      apply (drafts_checkUngrouped hn ha.linked _ _).bind
      · exact fun _ => drafts_pure _ _ (TableGroup.stored s.id)
      · intro t ht
        exact (Database.mem_of_resolveMembers hts ht).resolve_left List.not_mem_nil
  · intro g ids hfits hnodup
    have hplace : a.database.addTableGroup s.id g = a.database.place s.id (.tableGroup g) :=
      commit_eq_place _ _ (e := .tableGroup g) (by simp)
    rw [hplace]
    exact ends_addTableGroup (a := ⟨a.database, ids⟩) hn hid hfits.linked hnodup

end Push

end Store

end Catalog
