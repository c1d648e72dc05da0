import Catalog.Proofs.IdBase.Tracks
import Catalog.Proofs.Mirror.Links

/-!
Building from one base follows building from any other: commits and the binding of tags act on
shifted databases as they do on others, and so does every construction up to a whole bundle.
-/
namespace Catalog

open Attempt

variable {d : UInt32}

theorem pushNew_map {α β : Type} [DecidableEq α] [DecidableEq β] {f : α → β}
    (hf : Function.Injective f) (xs : List α) (x : α) :
    pushNew (xs.map f) (f x) = (pushNew xs x).map f := by
  simp only [pushNew, List.mem_map_of_injective hf, apply_ite (List.map f), List.map_append,
    List.map_singleton]

theorem foldl_pushNew_map {α β : Type} [DecidableEq α] [DecidableEq β] {f : α → β}
    (hf : Function.Injective f) (ys xs : List α) :
    (ys.map f).foldl pushNew (xs.map f) = (ys.foldl pushNew xs).map f := by
  induction ys generalizing xs with
  | nil => rfl
  | cons y ys ih => rw [List.map_cons, List.foldl_cons, List.foldl_cons, pushNew_map hf, ih]

/-! Commits. -/

namespace Database

variable (db : Database) (i : Id .schema)

theorem shift_updateSchema {f g : Schema → Schema} (h : ∀ s, (f s).shift d = g (s.shift d)) :
    (db.updateSchema i f).shift d = (db.shift d).updateSchema (i.shift d) g := by
  simp only [updateSchema, shift, List.map_map]
  congr 1
  apply List.map_congr_left
  intro s _
  have hid : (s.shift d).id = i.shift d ↔ s.id = i := Id.shift_inj
  simp only [Function.comp_apply, apply_ite (Schema.shift d), h, hid]

theorem shift_addSchema (s : Schema) :
    (db.addSchema s).shift d = (db.shift d).addSchema (s.shift d) := by
  simp only [addSchema, shift, List.map_append, List.map_singleton]

theorem shift_addTable (t : Table) :
    (db.addTable i t).shift d = (db.shift d).addTable (i.shift d) (t.shift d) :=
  db.shift_updateSchema i fun s => by simp [Schema.shift]

theorem shift_addTag (t : Tag) :
    (db.addTag i t).shift d = (db.shift d).addTag (i.shift d) (t.shift d) :=
  db.shift_updateSchema i fun s => by simp [Schema.shift]

theorem shift_mapTables {f g : Table → Table} (h : ∀ t, (f t).shift d = g (t.shift d)) :
    (db.mapTables f).shift d = (db.shift d).mapTables g := by
  simp only [mapTables, shift, Schema.shift, List.map_map, Function.comp_def, h]

theorem shift_mapFields {f g : Field → Field} (h : ∀ x, (f x).shift d = g (x.shift d)) :
    (db.mapFields f).shift d = (db.shift d).mapFields g := by
  apply shift_mapTables
  intro t
  simp only [Table.shift, List.map_map, Function.comp_def, h]

theorem shift_mapEnums {f g : Enum → Enum} (h : ∀ e, (f e).shift d = g (e.shift d)) :
    (db.mapEnums f).shift d = (db.shift d).mapEnums g := by
  simp only [mapEnums, shift, Schema.shift, List.map_map, Function.comp_def, h]

end Database

theorem Field.shift_linkEndpoint (f : Field) (e : Endpoint) :
    (f.linkEndpoint e).shift d = (f.shift d).linkEndpoint (e.shift d) := by
  have hcovers : (e.shift d).covers (f.shift d).id = e.covers f.id :=
    decide_eq_decide.mpr Id.mem_map_shift
  unfold linkEndpoint
  rw [hcovers, apply_ite (Field.shift d)]
  simp only [shift, List.map_append, List.map_singleton]
  rfl

namespace Database

variable (db : Database) (i : Id .schema)

theorem shift_addRef (r : Ref) :
    (db.addRef i r).shift d = (db.shift d).addRef (i.shift d) (r.shift d) := by
  unfold addRef
  rw [← db.shift_mapFields (d := d) (f := fun f => (f.linkEndpoint r.first).linkEndpoint r.second)
    fun f => by rw [Field.shift_linkEndpoint, Field.shift_linkEndpoint]; rfl]
  exact shift_updateSchema _ i fun s => by simp [Schema.shift]

theorem shift_addTableGroup (g : TableGroup) :
    (db.addTableGroup i g).shift d = (db.shift d).addTableGroup (i.shift d) (g.shift d) := by
  unfold addTableGroup
  rw [← db.shift_mapTables (d := d)
    (f := fun t => if t.id ∈ g.tables then { t with group := some g.id } else t)]
  · exact shift_updateSchema _ i fun s => by simp [Schema.shift]
  · intro t
    have hmem : (t.shift d).id ∈ (g.shift d).tables ↔ t.id ∈ g.tables := Id.mem_map_shift
    rw [apply_ite (Table.shift d)]
    simp only [hmem]
    rfl

theorem matchesEnum_shift (e : Id .enum) (f : Field) :
    (db.shift d).matchesEnum (e.shift d) (f.shift d) = db.matchesEnum e f := by
  unfold matchesEnum
  rw [schemaOfEnum?_shift, enum?_shift]
  cases db.schemaOfEnum? e with
  | none => rfl
  | some s => cases db.enum? e <;> rfl

theorem matchingFields_shift (e : Id .enum) :
    (db.shift d).matchingFields (e.shift d) = (db.matchingFields e).map (·.shift d) := by
  unfold matchingFields
  rw [fields_shift, List.filter_map]
  simp only [Function.comp_def, matchesEnum_shift]

theorem shift_bindEnum (e : Id .enum) :
    (db.bindEnum e).shift d = (db.shift d).bindEnum (e.shift d) := by
  have hids : ((db.shift d).matchingFields (e.shift d)).map (·.id)
      = ((db.matchingFields e).map (·.id)).map (·.shift d) := by
    rw [matchingFields_shift, List.map_map, List.map_map]
    rfl
  unfold bindEnum
  dsimp only
  rw [hids, ← db.shift_mapFields (d := d)
    (f := fun f => if db.matchesEnum e f then { f with enumId := some e } else f)]
  · apply shift_mapEnums
    intro u
    rw [apply_ite (Enum.shift d)]
    simp only [Enum.shift, Id.shift_inj, foldl_pushNew_map (Id.shift_injective d)]
  · intro f
    rw [matchesEnum_shift, apply_ite (Field.shift d)]
    rfl

theorem shift_bindEnums : db.bindEnums.shift d = (db.shift d).bindEnums := by
  have hfold : ∀ (es : List Enum) (db : Database),
      (es.foldl (fun db e => db.bindEnum e.id) db).shift d
        = (es.map (·.shift d)).foldl (fun db e => db.bindEnum e.id) (db.shift d) := by
    intro es
    induction es with
    | nil => exact fun _ => rfl
    | cons e es ih =>
      intro db
      rw [List.foldl_cons, ih, shift_bindEnum]
      rfl
  rw [bindEnums, hfold, bindEnums, enums_shift]

theorem shift_addEnum (e : Enum) :
    (db.addEnum i e).shift d = (db.shift d).addEnum (i.shift d) (e.shift d) := by
  have hinsert : (db.updateSchema i (·.insert (.enum e))).shift d
      = (db.shift d).updateSchema (i.shift d) (·.insert (.enum (e.shift d))) :=
    db.shift_updateSchema i fun s => by simp [Schema.insert, Schema.shift]
  rcases db.addEnum_cases i e with ⟨hbinding, heq⟩ | ⟨hbinding, heq⟩ <;>
    rcases (db.shift d).addEnum_cases (i.shift d) (e.shift d) with
      ⟨hbinding', heq'⟩ | ⟨hbinding', heq'⟩
  · rw [heq, heq', hinsert]
  · cases hbinding.symm.trans hbinding'
  · cases hbinding.symm.trans hbinding'
  · rw [heq, heq', shift_bindEnum, hinsert]
    rfl

end Database

/-! Binding tags. -/

def Tagging.shift (d : UInt32) (g : Tagging) : Tagging where
  tags := g.tags.map (·.shift d)
  bound := g.bound.map (·.shift d)

theorem Tagging.shift_link (g : Tagging) (table : Id .table) (tag : Id .tag) :
    (g.link table tag).shift d = (g.shift d).link (table.shift d) (tag.shift d) := by
  simp only [link, shift, List.map_map, pushNew_map (Id.shift_injective d)]
  congr 1
  apply List.map_congr_left
  intro t _
  simp only [Function.comp_apply, apply_ite (Tag.shift d)]
  simp only [Tag.shift, Id.shift_inj, pushNew_map (Id.shift_injective d)]

theorem tracks_mention (g : Tagging) (table : Id .table) (m : Decl.Mention) :
    Tracks (Allocator.shift d) (Tagging.shift d) (g.mention table m)
      ((g.shift d).mention (table.shift d) m) := by
  have hfind : (g.shift d).tags.find? (·.name = m.name)
      = (g.tags.find? (·.name = m.name)).map (·.shift d) := List.find?_map
  unfold Tagging.mention
  rw [hfind]
  cases g.tags.find? (·.name = m.name) with
  | none =>
    apply (tracks_issue .tag).bind
    intro i
    apply Tracks.pure
    rw [Tagging.shift_link]
    simp only [Tagging.shift, List.map_append, List.map_singleton]
    rfl
  | some t => exact .pure (g.shift_link table t.id)

theorem tracks_mentions (g : Tagging) (table : Id .table) (ms : List Decl.Mention) :
    Tracks (Allocator.shift d) (Tagging.shift d) (g.mentions table ms)
      ((g.shift d).mentions (table.shift d) ms) := by
  induction ms generalizing g with
  | nil => exact .pure rfl
  | cons m ms ih => exact (tracks_mention g table m).bind fun g => ih g

theorem tracks_bindTables (tags : List Tag) (ts : List Table) :
    Tracks (Allocator.shift d) (Prod.map (List.map (Table.shift d)) (List.map (Tag.shift d)))
      (bindTables tags ts) (bindTables (tags.map (·.shift d)) (ts.map (·.shift d))) := by
  induction ts generalizing tags with
  | nil => exact .pure rfl
  | cons t ts ih =>
    exact (tracks_mentions { tags, bound := t.tags } t.id t.mentions).bind fun g =>
      (ih g.tags).bind fun _ => .pure rfl

theorem Schema.tracks_bindTags (s : Schema) :
    Tracks (Allocator.shift d) (Schema.shift d) s.bindTags (s.shift d).bindTags :=
  (tracks_bindTables s.tags s.tables).bind fun _ => .pure rfl

/-! Constructions. -/

namespace Assembly

theorem tracks_bindTags : Tracks (Assembly.shift d) id bindTags bindTags := by
  have hinsert : Tracks (Assembly.shift d) (List.map (Schema.shift d))
      (insert (fun db => Attempt.mapEach Schema.bindTags db.schemas)
        fun db schemas => { db with schemas })
      (insert (fun db => Attempt.mapEach Schema.bindTags db.schemas)
        fun db schemas => { db with schemas }) := by
    apply tracks_insert
    · exact fun db => Tracks.mapEach Schema.tracks_bindTags db.schemas
    · exact fun _ _ => rfl
  exact hinsert.bind fun _ => .pure rfl

theorem tracks_pushSchema (info : SchemaInfo) (token : Span) :
    Tracks (Assembly.shift d) (Schema.shift d) (pushSchema info token) (pushSchema info token) := by
  apply tracks_insert
  · intro db
    apply (tracks_issue .schema).bind
    intro i
    rw [db.any_schemas_shift fun s => s.collides info]
    split
    · exact .reject _
    · exact .pure rfl
  · exact fun db s => (db.shift_addSchema s).symm

variable (i : Id .schema)

theorem tracks_pushTable (t : Decl.Table) :
    Tracks (Assembly.shift d) (Table.shift d) (pushTable i t) (pushTable (i.shift d) t) := by
  apply tracks_insert
  · exact fun db => (tracks_draftTable t).bind fun _ =>
      (tracks_checkName db i _ _ _).bind fun _ => .pure rfl
  · exact fun db t => (db.shift_addTable i t).symm

theorem tracks_pushTag (t : Decl.Tag) :
    Tracks (Assembly.shift d) (Tag.shift d) (pushTag i t) (pushTag (i.shift d) t) := by
  apply tracks_insert
  · exact fun db => (tracks_issue .tag).bind fun _ =>
      (tracks_checkName db i _ _ _).bind fun _ => .pure rfl
  · exact fun db t => (db.shift_addTag i t).symm

theorem tracks_pushEnum (e : Decl.Enum) :
    Tracks (Assembly.shift d) (Enum.shift d) (pushEnum i e) (pushEnum (i.shift d) e) := by
  apply tracks_insert
  · exact fun db => (tracks_draftEnum e).bind fun _ =>
      (tracks_checkName db i _ _ _).bind fun _ => .pure rfl
  · exact fun db e => (db.shift_addEnum i e).symm

theorem tracks_pushRef (r : Decl.Ref) :
    Tracks (Assembly.shift d) (Ref.shift d) (pushRef i r) (pushRef (i.shift d) r) := by
  apply tracks_insert
  · exact fun db => (Tracks.ofExcept (db.resolveRef_shift r)).bind fun ends =>
      (tracks_draftRef r ends.1 ends.2).bind fun r =>
      (tracks_checkRef db i r).bind fun _ => .pure rfl
  · exact fun db r => (db.shift_addRef i r).symm

theorem tracks_pushTableGroup (g : Decl.TableGroup) :
    Tracks (Assembly.shift d) (TableGroup.shift d) (pushTableGroup i g)
      (pushTableGroup (i.shift d) g) := by
  apply tracks_insert
  · intro db
    apply (Tracks.ofExcept (db.resolveMembers_shift g.token [] g.tables)).bind
    intro ts
    apply (tracks_issue .tableGroup).bind
    intro j
    apply (tracks_checkName db i _ _ _).bind
    intro _
    apply (tracks_checkUngrouped db ts _).bind
    intro _
    apply Tracks.pure
    simp only [TableGroup.shift, List.map_map]
    rfl
  · exact fun db g => (db.shift_addTableGroup i g).symm

theorem tracks_markDefault : Tracks (Assembly.shift d) id markDefault markDefault :=
  .modify fun _ => rfl

theorem tracks_getOrCreateSchema (name : String) :
    Tracks (Assembly.shift d) (Id.shift d) (getOrCreateSchema name) (getOrCreateSchema name) := by
  apply Tracks.state
  intro a
  have hpush : ∀ info, Tracks (Assembly.shift d) (Id.shift d)
      (do let s ← pushSchema info {}; pure s.id) (do let s ← pushSchema info {}; pure s.id) :=
    fun info => (tracks_pushSchema info {}).bind fun _ => .pure rfl
  have hname : (a.shift d).database.config.defaultSchemaName
      = a.database.config.defaultSchemaName := rfl
  have hnote : (a.shift d).database.config.defaultSchemaNote
      = a.database.config.defaultSchemaNote := rfl
  have hfind : (a.shift d).database.findSchema? name
      = (a.database.findSchema? name).map (·.shift d) := a.database.findSchema?_shift name
  dsimp only
  rw [hname, hnote, hfind]
  cases a.database.findSchema? name with
  | none => exact .ite (tracks_markDefault.bind fun _ => hpush _) (hpush _)
  | some s => exact .ite (tracks_markDefault.bind fun _ => .pure rfl) (.pure rfl)

theorem tracks_route (schemaName : Option String) :
    Tracks (Assembly.shift d) (Id.shift d) (route schemaName) (route schemaName) :=
  .state fun _ => tracks_getOrCreateSchema _

theorem tracks_routed {ι ε : Type} {f : ε → ε} {schemaName : ι → Option String}
    {push : Id .schema → ι → Construction ε}
    (h : ∀ i r, Tracks (Assembly.shift d) f (push i r) (push (i.shift d) r)) (r : ι) :
    Tracks (Assembly.shift d) f (routed schemaName push r) (routed schemaName push r) :=
  (tracks_route (schemaName r)).bind fun i => h i r

theorem tracks_markIfDefault :
    Tracks (Assembly.shift d) id (markIfDefault i) (markIfDefault (i.shift d)) := by
  apply Tracks.modify
  intro a
  have hschema : (a.shift d).database.schema? (i.shift d)
      = (a.database.schema? i).map (·.shift d) := a.database.schema?_shift i
  rw [hschema]
  cases a.database.schema? i with
  | none => rfl
  | some s =>
    have hempty : (s.shift d).isEmpty = s.isEmpty := by
      simp only [Schema.isEmpty, Schema.shift, List.isEmpty_map]
    rw [Option.map_some]
    dsimp only
    rw [hempty, apply_ite (Assembly.shift d)]
    rfl

theorem tracks_process (s : Decl.Schema) :
    Tracks (Assembly.shift d) id (process i s) (process (i.shift d) s) :=
  (Tracks.forEach (tracks_pushTable i) s.tables).bind fun _ =>
  (Tracks.forEach (tracks_pushTag i) s.tags).bind fun _ =>
  (Tracks.forEach (tracks_pushEnum i) s.enums).bind fun _ =>
  (Tracks.forEach (tracks_pushRef i) s.refs).bind fun _ =>
  Tracks.forEach (tracks_pushTableGroup i) s.tableGroups

theorem tracks_declareSchema (s : Decl.Schema) :
    Tracks (Assembly.shift d) id (declareSchema s) (declareSchema s) :=
  (tracks_pushSchema s.toSchemaInfo s.token).bind fun t =>
  (tracks_process t.id s).bind fun _ => tracks_markIfDefault t.id

theorem tracks_bindRemaining : Tracks (Assembly.shift d) id bindRemaining bindRemaining := by
  apply Tracks.modify
  intro a
  have hbinding : (a.shift d).database.config.enumBinding = a.database.config.enumBinding := rfl
  rw [hbinding]
  cases a.database.config.enumBinding with
  | onInsert => rfl
  | afterConstruction =>
    exact congrArg (Assembly.mk · (a.ids.shift d)) a.database.shift_bindEnums.symm

theorem tracks_addBundle (b : Decl.Bundle) :
    Tracks (Assembly.shift d) id (addBundle b) (addBundle b) :=
  (Tracks.forEach tracks_declareSchema b.schemas).bind fun _ =>
  (Tracks.forEach (tracks_routed tracks_pushTable) b.tables).bind fun _ =>
  (Tracks.forEach (tracks_routed tracks_pushTag) b.tags).bind fun _ =>
  tracks_bindTags.bind fun _ =>
  (Tracks.forEach (tracks_routed tracks_pushRef) b.refs).bind fun _ =>
  (Tracks.forEach (tracks_routed tracks_pushEnum) b.enums).bind fun _ =>
  (Tracks.forEach (tracks_routed tracks_pushTableGroup) b.tableGroups).bind fun _ =>
  tracks_bindRemaining

theorem start_shift (c : Config) (info : DatabaseInfo) (p q : UInt32) :
    (start (c.withIdBase p) info).shift (q - p) = start (c.withIdBase q) info := by
  have hbase : p + (q - p) = q := by rw [UInt32.add_comm, UInt32.sub_add_cancel]
  simp only [start, shift, Database.shift, Id.shift, Allocator.shift, Allocator.advance,
    Config.withIdBase, hbase]
  rfl

/-- From two bases a build is rejected for one reason, or comes to databases that differ in
identifiers by the distance of the bases, unless identifiers run out. -/
theorem build_withIdBase (b : Decl.Bundle) (c : Config) (p q : UInt32) :
    (∃ r, r.kind = .idSpaceExhausted ∧
      (build b (c.withIdBase p) = .error r ∨ build b (c.withIdBase q) = .error r)) ∨
    (∃ r, build b (c.withIdBase p) = .error r ∧ build b (c.withIdBase q) = .error r) ∨
    ∃ a, build b (c.withIdBase p) = .ok a ∧ build b (c.withIdBase q) = .ok (a.shift (q - p)) := by
  have htracks := tracks_addBundle (d := q - p) b (start (c.withIdBase p) b.project)
  rw [start_shift] at htracks
  unfold build
  rcases htracks with ⟨r, a, hrun, hkind⟩ | ⟨r, a, hrun, hkind⟩ | hrun
  · exact .inl ⟨r, hkind, .inl (by rw [hrun])⟩
  · exact .inl ⟨r, hkind, .inr (by rw [hrun])⟩
  · rw [hrun]
    rcases (addBundle b).run (start (c.withIdBase p) b.project) with ⟨r | _, a⟩
    · exact .inr (.inl ⟨r, rfl, rfl⟩)
    · exact .inr (.inr ⟨a, rfl, rfl⟩)

end Assembly

end Catalog
