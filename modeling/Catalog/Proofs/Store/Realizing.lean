import Catalog.Proofs.Store.Enums

/-!
Construction in a store, step after step: what is put together from parts that come to the store of
the tree comes to it as well. So schemas are created and filled in the store as in the tree.
-/
namespace Catalog

namespace Access

variable {α β γ δ : Type} {P P' : Assembly → Prop} {x : Access β} {y : Construction α} {f : α → β}
  {m : Remit}

theorem Realizes.imp (h : Realizes P x y f) (hP : ∀ a, P' a → P a) : Realizes P' x y f :=
  fun a ha hP' => h a ha (hP a hP')

theorem Realizes.meets {a : Assembly} (h : Realizes P x y f) (ha : a.Sound) (hP : P a) :
    y.Meets a (fun v b => Ends x a.layout (.ok (f v)) b.layout)
      (fun r b => Ends x a.layout (.error r) b.layout) := by
  have hends := h a ha hP
  rcases hr : y.run a with ⟨r | v, b⟩ <;> rw [hr] at hends
  · exact Attempt.meets_of_run_error hr hends
  · exact Attempt.meets_of_run_ok hr hends

theorem realizes_pure {v : α} {w : β} (h : f v = w) : Realizes P (pure w) (pure v) f :=
  fun _ _ _ => h ▸ ends_pure _ _

/-- The state that the first part leads to is sound, as it has been led to by changes. -/
theorem Realizes.bind {R : α → Assembly → Prop} {g : β → Access δ} {h : α → Construction γ}
    {f' : γ → δ} (hx : Realizes P x y f) (hy : Evolves m P y R)
    (hg : ∀ v, Realizes (R v) (g (f v)) (h v) f') : Realizes P (x >>= g) (y >>= h) f' := by
  intro a ha hP
  have hends := hx a ha hP
  rcases hr : y.run a with ⟨r | v, b⟩
  · rw [hr] at hends
    rw [Attempt.run_bind_error hr]
    exact hends.bind_error g
  · rw [hr] at hends
    obtain ⟨hab, hR⟩ := (hy a hP).of_run_ok hr
    have hb : b.Sound := hab.keep (fun _ _ => Assembly.Sound.change) ha
    rw [Attempt.run_bind_ok hr]
    exact hends.bind (hg v b hb hR)

theorem Realizes.map {f' : γ → δ} {o : β → δ} {h : α → γ} (hx : Realizes P x y f)
    (ho : ∀ v, f' (h v) = o (f v)) : Realizes P (o <$> x) (do let v ← y; pure (h v)) f' := by
  intro a ha hP
  have hends := (hx a ha hP).map o
  rcases hr : y.run a with ⟨r | v, b⟩
  · rw [hr] at hends
    rw [Attempt.run_bind_error hr]
    exact hends
  · rw [hr, Except.map, Except.map, ← ho] at hends
    rw [Attempt.run_bind_ok hr]
    exact hends

theorem Realizes.state {g : Store → Access β} {h : Assembly → Construction α}
    (hg : ∀ a, Realizes (fun b => P b ∧ b = a) (g a.layout) (h a) f) :
    Realizes P (get >>= g) (Attempt.state >>= h) f :=
  fun a ha hP => Ends.get (hg a a ha ⟨hP, rfl⟩)

/-- What is looked up in the store is known in the tree. -/
theorem Realizes.read {g : γ → Access β} {x : Access γ} {v : γ}
    (hx : ∀ a : Assembly, a.Sound → P a → Ends x a.layout (.ok v) a.layout)
    (hg : Realizes P (g v) y f) : Realizes P (x >>= g) y f :=
  fun a ha hP => (hx a ha hP).bind (hg a ha hP)

/-- What is asked of the store is asked of the tree. -/
theorem Realizes.ite {c c' : Prop} [Decidable c] [Decidable c'] {x' : Access β}
    {y' : Construction α} (hc : c ↔ c') (h : Realizes P x y f) (h' : Realizes P x' y' f) :
    Realizes P (if c then x else x') (if c' then y else y') f := by
  by_cases hp : c'
  · rw [if_pos hp, if_pos (hc.mpr hp)]
    exact h
  · rw [if_neg hp, if_neg (mt hc.mp hp)]
    exact h'

theorem Realizes.forEach {f : δ → Access β} {g : δ → Construction α} {h : α → β}
    (hf : ∀ d, Realizes P (f d) (g d) h) (hg : ∀ d, Evolves m P (g d) fun _ => P) (ds : List δ) :
    Realizes P (Store.forEach f ds) (Attempt.forEach g ds) fun _ => () := by
  induction ds with
  | nil => exact fun _ _ _ => ends_pure () _
  | cons d ds ih =>
    have hcons : Store.forEach f (d :: ds) = f d >>= fun _ => Store.forEach f ds := by
      simp only [Store.forEach, List.forM_cons, List.forM_eq_forM, bind_assoc, pure_bind]
    rw [hcons]
    exact (hf d).bind (hg d) fun _ => ih

end Access

namespace Store

open Access

/-! Schemas. -/

theorem ends_addSchema {db : Database} {s : Schema}
    (hs : s = { toSchemaInfo := s.toSchemaInfo, id := s.id, token := s.token }) (ids : Allocator) :
    Ends (addSchema (s.stored db.id)) (Assembly.layout ⟨db, ids⟩) (.ok s.id)
      (Assembly.layout ⟨db.addSchema s, ids⟩) := by
  have hrows : (db.addSchema s).rows = db.rows.push (k := .schema) (s.stored db.id) := by
    rw [hs]
    funext k
    cases k <;> simp [Database.rows, Database.addSchema, Rows.push, Schema.rows, Function.update]
  have hlisted : (db.addSchema s).schemas.map (·.id) = db.schemas.map (·.id) ++ [s.id] :=
    List.map_append
  have hlayout : Assembly.layout ⟨db.addSchema s, ids⟩ =
      { (Assembly.layout ⟨db, ids⟩).withRows (db.rows.push (k := .schema) (s.stored db.id)) with
        schemas := db.schemas.map (·.id) ++ [s.id] } := by
    rw [← hrows, ← hlisted]
    rfl
  rw [hlayout]
  change Ends _ ((Assembly.layout ⟨db, ids⟩).withRows db.rows) _ _
  apply (ends_insert (k := .schema) db.rows (s.stored db.id)).seq
  exact (ends_modify (fun st => { st with schemas := st.schemas ++ [s.id] }) _).seq
    (ends_pure s.id _)

theorem drafts_checkSchema {db : Database} (hn : ∀ k, (db.arena k).Nodup) (s : Schema) :
    Drafts (do checkSchema (s.stored db.id); pure (s.stored db.id)) db
      (if db.schemas.any fun other => other.collides s.toSchemaInfo then
        .reject { cause := .duplicateSchema s.name, span := s.token }
      else pure s) (Schema.stored db.id) := by
  intro ids
  have hfind := ends_find? (k := .schema) (a := ⟨db, ids⟩) hn (f := Schema.stored db.id)
    (fun _ hs => Database.mem_rows_schema hs) (·.collides s.toSchemaInfo)
  cases hf : db.schemas.find? fun other => (other.stored db.id).collides s.toSchemaInfo with
  | none =>
    rw [if_neg]
    · rw [hf] at hfind
      exact (Ends.get (hfind.bind (ends_pure () _))).seq (ends_pure _ _)
    · rw [Bool.not_eq_true, List.any_eq_false]
      exact List.find?_eq_none.mp hf
  | some other =>
    rw [if_pos]
    · rw [hf] at hfind
      exact (Ends.get (hfind.bind (ends_throw _ _))).bind_error _
    · exact List.any_eq_true.mpr ⟨other, List.mem_of_find?_eq_some hf,
        List.find?_some (p := fun other : Schema => other.collides s.toSchemaInfo) hf⟩

theorem realizes_newSchema (info : SchemaInfo) (token : Span) :
    Realizes (fun _ => True) (newSchema info token) (Assembly.pushSchema info token) (·.id) := by
  intro a ha _
  have hassoc : (drafted (Stored.draftSchema a.layout.id info token) >>= pushSchema) = (do
      let s ← drafted (Stored.draftSchema a.layout.id info token)
      checkSchema s
      pure s) >>= addSchema := by
    simp only [bind_assoc, pure_bind]
    rfl
  apply Ends.get
  rw [hassoc]
  apply ends_insert_of_drafts (g := Schema.stored a.database.id)
  · apply (drafts_issue a.database fun i => Schema.stored a.database.id
      { toSchemaInfo := info, id := i, token }).bind
    exact fun i => drafts_checkSchema ha.nodup_arena { toSchemaInfo := info, id := i, token }
  · intro s ids hrun
    obtain ⟨hopens, -⟩ := (Assembly.meets_pushSchema info token).of_run_ok hrun
    exact ends_addSchema hopens.empty ids

theorem realizes_markDefault :
    Realizes (fun _ => True) markDefault Assembly.markDefault fun _ => () :=
  fun _ _ _ => ends_modify _ _

theorem realizes_getOrCreateSchema (name : String) :
    Realizes (fun _ => True) (getOrCreateSchema name) (Assembly.getOrCreateSchema name)
      fun i => i := by
  apply Realizes.state
  intro a
  apply Realizes.read (v := (a.database.findSchema? name).map (·.id))
  · rintro _ ha ⟨-, rfl⟩
    exact ends_findSchema ha.nodup_arena name
  dsimp only
  cases hf : a.database.findSchema? name with
  | some s =>
    apply Realizes.read (v := s.stored a.database.id)
    · rintro _ ha ⟨-, rfl⟩
      exact ends_row_layout ha.nodup_arena
        (Database.mem_rows_schema (List.mem_of_find?_eq_some hf))
    dsimp only
    refine Realizes.ite Iff.rfl ?_ (realizes_pure rfl)
    apply Realizes.bind (realizes_markDefault.imp fun _ _ => trivial)
      (evolves_markDefault.imp (fun _ _ => trivial) fun _ _ h => h)
    exact fun _ => realizes_pure rfl
  | none =>
    have hnew : ∀ info, Realizes (fun _ => True) (newSchema info {})
        (do let s ← Assembly.pushSchema info {}; pure s.id) fun i => i := by
      intro info
      rw [← id_map (newSchema info {})]
      exact (realizes_newSchema info {}).map fun _ => rfl
    refine Realizes.ite Iff.rfl ?_ ((hnew _).imp fun _ _ => trivial)
    apply Realizes.bind (realizes_markDefault.imp fun _ _ => trivial)
      (evolves_markDefault.imp (fun _ _ => trivial) fun _ _ h => h)
    exact fun _ => hnew _

theorem realizes_route (schemaName : Option String) :
    Realizes (fun _ => True) (route schemaName) (Assembly.route schemaName) fun i => i := by
  apply Realizes.state
  exact fun a => (realizes_getOrCreateSchema _).imp fun _ _ => trivial

/-! Records, one after another. -/

section Records

variable {δ ε ε' : Type} {f : ε → ε'} {entity : ε → Entity} {k : Kind}

/-- Records that are inserted into one schema before others. -/
theorem Realizes.inserts {id : Id .schema} {push : δ → Access ε'} {push' : δ → Construction ε}
    (h : ∀ d, Realizes (Assembly.HasSchema id) (push d) (push' d) f)
    (hmeets : ∀ d a s, a.database.schema? id = some s →
      (push' d).Meets a (fun v b => a.Inserts s (entity v) b) fun _ b => a.Spent b)
    (hk : ∀ v, (entity v).kind = k) {ds : List δ} {rest : Access Unit} {rest' : Construction Unit}
    (hrest : Realizes (Assembly.HasSchema id) rest rest' fun _ => ()) :
    Realizes (Assembly.HasSchema id) (do forEach push ds; rest)
      (do Attempt.forEach push' ds; rest') fun _ => () := by
  have heach : ∀ d, Evolves (.into id k) (Assembly.HasSchema id) (push' d)
      fun _ => Assembly.HasSchema id := fun d => evolves_insert (hmeets d) hk
  exact (Realizes.forEach h heach ds).bind (Evolves.forEach heach ds) fun _ => hrest

theorem realizes_routed {schemaName : δ → Option String} {push : Id .schema → δ → Access ε'}
    {push' : Id .schema → δ → Construction ε}
    (h : ∀ id d, Realizes (Assembly.HasSchema id) (push id d) (push' id d) f) (d : δ) :
    Realizes (fun _ => True) (routed schemaName push d) (Assembly.routed schemaName push' d) f :=
  (realizes_route _).bind (evolves_route _) fun id => h id d

/-- Records that are inserted into the schemas that they name, before others. -/
theorem Realizes.routed {schemaName : δ → Option String} {push : Id .schema → δ → Access ε'}
    {push' : Id .schema → δ → Construction ε}
    (h : ∀ id d, Realizes (Assembly.HasSchema id) (push id d) (push' id d) f)
    (hmeets : ∀ a s id d, a.database.schema? id = some s →
      (push' id d).Meets a (fun v b => a.Inserts s (entity v) b) fun _ b => a.Spent b)
    (hk : ∀ v, (entity v).kind = k) {ds : List δ} {rest : Access Unit} {rest' : Construction Unit}
    (hrest : Realizes (fun _ => True) rest rest' fun _ => ()) :
    Realizes (fun _ => True) (do forEach (Store.routed schemaName push) ds; rest)
      (do Attempt.forEach (Assembly.routed schemaName push') ds; rest') fun _ => () := by
  have heach : ∀ d, Evolves (.of k) (fun _ => True) (Assembly.routed schemaName push' d)
      fun _ _ => True := evolves_routedRecord hmeets hk
  exact (Realizes.forEach (realizes_routed h) heach ds).bind (Evolves.forEach heach ds)
    fun _ => hrest

end Records

theorem realizes_process (id : Id .schema) (d : Decl.Schema) :
    Realizes (Assembly.HasSchema id) (process id d) (Assembly.process id d) fun _ => () := by
  unfold process Assembly.process
  apply Realizes.inserts (realizes_pushTable id) (fun t _ _ hs => Assembly.meets_pushTable hs t)
    fun _ => rfl
  apply Realizes.inserts (realizes_newTag id) (fun t _ _ hs => Assembly.meets_pushTag hs t)
    fun _ => rfl
  apply Realizes.inserts (realizes_pushEnum id) (fun e _ _ hs => Assembly.meets_pushEnum hs e)
    fun _ => rfl
  apply Realizes.inserts (realizes_pushRef id) (fun r _ _ hs => Assembly.meets_pushRef hs r)
    fun _ => rfl
  exact Realizes.forEach (realizes_pushTableGroup id) (fun g => evolves_insert
    (fun _ _ hs => Assembly.meets_pushTableGroup hs g) fun _ => rfl) d.tableGroups

theorem isEmpty_stored (s : Schema) (db : Id .database) : (s.stored db).isEmpty = s.isEmpty := by
  simp [Stored.Schema.isEmpty, Schema.stored, Schema.isEmpty]

theorem realizes_markIfDefault (id : Id .schema) :
    Realizes (Assembly.HasSchema id) (markIfDefault id) (Assembly.markIfDefault id)
      fun _ => () := by
  intro a ha hid
  obtain ⟨s, hs⟩ := hid.schema?
  obtain ⟨hmem, rfl⟩ := Assembly.mem_schemas_schema? hs
  have hsame : (s.stored a.database.id).name = a.layout.config.defaultSchemaName ∧
      (s.stored a.database.id).isEmpty = false
        ↔ s.name = a.database.config.defaultSchemaName ∧ s.isEmpty = false := by
    rw [isEmpty_stored]
    exact Iff.rfl
  rw [Assembly.markIfDefault, Attempt.run_modify]
  simp only [hs]
  apply (ends_row_layout ha.nodup_arena (Database.mem_rows_schema hmem)).bind
  apply Ends.get
  by_cases hmark : s.name = a.database.config.defaultSchemaName ∧ s.isEmpty = false
  · rw [if_pos hmark, if_pos (hsame.mpr hmark)]
    exact ends_modify _ _
  · rw [if_neg hmark, if_neg (mt hsame.mp hmark)]
    exact ends_pure _ _

theorem realizes_declareSchema (d : Decl.Schema) :
    Realizes (fun _ => True) (declareSchema d) (Assembly.declareSchema d) fun _ => () := by
  unfold declareSchema Assembly.declareSchema
  apply (realizes_newSchema d.toSchemaInfo d.token).bind (evolves_pushSchema d.toSchemaInfo d.token)
  intro s
  apply (realizes_process s.id d).bind (evolves_process d)
  exact fun _ => realizes_markIfDefault s.id

/-! Enums. -/

theorem realizes_bindEnums :
    Realizes (fun _ => True) bindEnums Assembly.bindEnums fun _ => () :=
  fun _ ha _ => ends_bindEnums ha

theorem realizes_bindRemaining :
    Realizes (fun _ => True) bindRemaining Assembly.bindRemaining fun _ => () := by
  intro a ha _
  rw [Assembly.bindRemaining, Attempt.run_modify]
  apply Ends.get
  dsimp only
  have hconfig : a.layout.config.enumBinding = a.database.config.enumBinding := rfl
  rw [hconfig]
  cases a.database.config.enumBinding with
  | onInsert => exact ends_pure _ _
  | afterConstruction => exact ends_bindEnums ha

theorem realizes_bindEnum (i : Id .enum) :
    Realizes (fun a => i ∈ a.database.arena .enum) (bindEnum i) (Assembly.bindEnum i)
      fun n => n := by
  intro a ha hi
  obtain ⟨s, hs, e, he, rfl⟩ := exists_enum_of_mem hi
  exact ends_bindEnum ha.nodup_arena hs he

end Store

end Catalog
