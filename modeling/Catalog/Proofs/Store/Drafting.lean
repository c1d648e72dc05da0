import Catalog.Assembly.Build
import Catalog.Proofs.Store.Reading
import Catalog.Store.Draft

/-!
Drafts of records, and the drafts of entities that they are the records of. Work on a store comes to
the same as drafting from the tree if it ends alike and takes the same identifiers.
-/
namespace Catalog

namespace Attempt

variable {σ α β γ : Type}

theorem mapEach_fmap (g : β → γ) (f : α → Attempt σ β) (as : List α) :
    mapEach (fun a => g <$> f a) as = List.map g <$> mapEach f as := by
  induction as with
  | nil => rfl
  | cons a as ih => simp only [mapEach, ih, map_bind, bind_map_left, map_pure, List.map_cons]

end Attempt

/-! The records of an entity and of what it owns. -/

def Table.draft (schema : Id .schema) (t : Table) : Stored.TableDraft where
  table := t.stored schema
  fields := t.fields.map (·.stored t.id)
  indexes := t.indexes.map (·.stored t.id)
  indexColumns := t.indexes.flatMap fun x => x.columns.map (·.stored x.id)

def Enum.draft (schema : Id .schema) (e : Enum) : Stored.EnumDraft where
  enum := e.stored schema
  values := e.values.map (·.stored e.id)

def Ref.draft (schema : Id .schema) (r : Ref) : Stored.RefDraft where
  ref := r.stored schema
  endpoints := r.endpoints.map (·.stored r.id)

namespace Stored

/-- Drafting records one by one, each for an entity that is drafted with it. -/
theorem draftDistinct_eq {δ ε ρ : Type} {k : Kind} {name : δ → String} {repeated : δ → Rejection}
    (make : δ → Id k → ε) (store : ε → ρ) (draft : List String → List δ → Drafting (List ε))
    (hnil : ∀ earlier, draft earlier [] = pure [])
    (hcons : ∀ earlier d ds, draft earlier (d :: ds) = do
      let id ← issue k
      if name d ∈ earlier then .reject (repeated d)
      else
        let es ← draft (name d :: earlier) ds
        pure (make d id :: es))
    (earlier : List String) (ds : List δ) :
    draftDistinct k name repeated (fun d id => store (make d id)) earlier ds
      = List.map store <$> draft earlier ds := by
  induction ds generalizing earlier with
  | nil => rw [draftDistinct, hnil, map_pure, List.map_nil]
  | cons d ds ih =>
    rw [draftDistinct, hcons, map_bind]
    congr 1
    funext id
    split
    · rfl
    · rw [ih, map_bind, bind_map_left]
      simp only [map_pure, List.map_cons]

theorem draftIndex_eq (table : Id .table) (d : Decl.Index) : draftIndex table d
    = (fun x => (x.stored table, x.columns.map (·.stored x.id))) <$> Catalog.draftIndex d := by
  have hcolumn : ∀ index, draftColumn index
      = fun d => (·.stored index) <$> Catalog.draftColumn d := by
    intro index
    funext d
    simp only [draftColumn, Catalog.draftColumn, map_bind, map_pure]
    rfl
  simp only [draftIndex, Catalog.draftIndex, hcolumn, Attempt.mapEach_fmap, map_bind, bind_map_left,
    map_pure, List.map_map]
  rfl

theorem draftTable_eq (schema : Id .schema) (d : Decl.Table) :
    draftTable schema d = (·.draft schema) <$> Catalog.draftTable d := by
  have hfields : ∀ table, draftDistinct .field (·.name)
      (fun f => { cause := .duplicateField d.name f.name, span := f.token }) (draftField table) []
      d.fields = List.map (·.stored table) <$> draftFields d.name [] d.fields :=
    fun table => draftDistinct_eq
      (fun f id => { toFieldInfo := f.toFieldInfo, id, token := f.token }) (Field.stored table)
      (draftFields d.name) (fun _ => rfl) (fun _ _ _ => rfl) [] d.fields
  have hindexes : ∀ table, Attempt.mapEach (draftIndex table) d.indexes
      = List.map (fun x => (x.stored table, x.columns.map (·.stored x.id)))
        <$> Attempt.mapEach Catalog.draftIndex d.indexes := by
    intro table
    rw [← Attempt.mapEach_fmap]
    congr 1
    funext x
    exact draftIndex_eq table x
  simp only [draftTable, Catalog.draftTable, hfields, hindexes, map_bind, bind_map_left, map_pure,
    List.map_map, List.flatMap_map]
  rfl

theorem draftEnum_eq (schema : Id .schema) (d : Decl.Enum) :
    draftEnum schema d = (·.draft schema) <$> Catalog.draftEnum d := by
  have hvalues : ∀ enum, draftDistinct .enumValue (·.name)
      (fun v => { cause := .duplicateEnumValue d.name v.name, span := v.token }) (draftValue enum)
      [] d.values = List.map (·.stored enum) <$> draftValues d.name [] d.values :=
    fun enum => draftDistinct_eq
      (fun v id => { toEnumValueInfo := v.toEnumValueInfo, id, token := v.token })
      (EnumValue.stored enum) (draftValues d.name) (fun _ => rfl) (fun _ _ _ => rfl) [] d.values
  simp only [draftEnum, Catalog.draftEnum, hvalues, map_bind, bind_map_left, map_pure, List.map_map]
  rfl

theorem draftRef_eq (schema : Id .schema) (d : Decl.Ref) (first second : Resolved) :
    draftRef schema d [first, second]
      = (·.draft schema) <$> Catalog.draftRef d first second := by
  have hendpoint : ∀ ref, draftEndpoint ref
      = fun e => (·.stored ref) <$> Catalog.draftEndpoint e := by
    intro ref
    funext e
    simp only [draftEndpoint, Catalog.draftEndpoint, map_bind, map_pure]
    rfl
  simp only [draftRef, Catalog.draftRef, hendpoint, Attempt.mapEach, map_bind,
    bind_map_left, map_pure, bind_assoc, pure_bind]
  rfl

end Stored

namespace Access

variable {α β γ δ : Type} {x : Access β} {db : Database} {y : Drafting α} {f : α → β}

/-- On the store of a database, work ends as drafting does and takes the same identifiers. -/
def Drafts (x : Access β) (db : Database) (y : Drafting α) (f : α → β) : Prop :=
  ∀ ids, Ends x (Assembly.layout ⟨db, ids⟩) ((y.run ids).1.map f)
    (Assembly.layout ⟨db, (y.run ids).2⟩)

theorem drafts_drafted (db : Database) (y : Drafting α) (f : α → β) :
    Drafts (Store.drafted (f <$> y)) db y f := by
  intro ids
  change some (((f <$> y).run ids).1,
    { Assembly.layout ⟨db, ids⟩ with ids := ((f <$> y).run ids).2 }) = _
  rw [Attempt.run_map]
  rfl

theorem drafts_issue {k : Kind} (db : Database) (f : Id k → β) :
    Drafts (Store.drafted (do pure (f (← issue k)))) db (issue k) f := by
  rw [bind_pure_comp]
  exact drafts_drafted db (issue k) f

theorem drafts_pure (db : Database) (v : α) (f : α → β) :
    Drafts (pure (f v)) db (pure v) f :=
  fun _ => ends_pure _ _

theorem Drafts.bind {g : β → Access δ} {h : α → Drafting γ} {f' : γ → δ} (hx : Drafts x db y f)
    (hg : ∀ v, Drafts (g (f v)) db (h v) f') : Drafts (x >>= g) db (y >>= h) f' := by
  intro ids
  have hends := hx ids
  rcases hy : y.run ids with ⟨r | v, ids'⟩
  · rw [hy] at hends
    rw [Attempt.run_bind_error hy]
    exact hends.bind_error _
  · rw [hy] at hends
    rw [Attempt.run_bind_ok hy]
    exact hends.bind (hg v ids')

/-- What is looked up takes no identifiers. -/
theorem Drafts.read {e : Except Rejection α} {g : β → Access δ} {h : α → Drafting γ} {f' : γ → δ}
    (hx : ∀ ids, Ends x (Assembly.layout ⟨db, ids⟩) (e.map f) (Assembly.layout ⟨db, ids⟩))
    (hg : ∀ v, e = .ok v → Drafts (g (f v)) db (h v) f') :
    Drafts (x >>= g) db (Attempt.ofExcept e >>= h) f' := by
  intro ids
  cases e with
  | error r => exact (hx ids).bind_error _
  | ok v => exact (hx ids).bind (hg v rfl ids)

end Access

end Catalog
