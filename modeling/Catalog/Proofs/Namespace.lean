import Catalog.Proofs.Integrity.Reach

/-!
The names of schemas. Schemas come about by declaration and on first mention, in any order, and in
every reachable database a name still refers to one schema at most. A new schema is checked against
what looking up its names finds.
-/
namespace Catalog

namespace Database

variable {db : Database} {s t : Schema} {name : String}

/-- No name refers to two schemas, and each schema is found by its name and by its alias. -/
structure Unambiguous (db : Database) : Prop where
  apart : db.schemas.Pairwise fun s t => ∀ name, ¬ (s.isNamed name = true ∧ t.isNamed name = true)
  byName : ∀ s ∈ db.schemas, db.findSchema? s.name = some s
  byAlias : ∀ s ∈ db.schemas, ∀ name ∈ s.aliasName, db.findSchema? name = some s

/-- Whether the name or the alias of a new schema is that of some schema. -/
def finds (db : Database) (info : SchemaInfo) : Bool :=
  (db.findSchema? info.name).isSome || info.aliasName.any fun name => (db.findSchema? name).isSome

theorem isSome_findSchema?_iff :
    (db.findSchema? name).isSome = true ↔ ∃ s ∈ db.schemas, s.isNamed name = true :=
  List.find?_isSome

/-- The check for collisions and the look-up of names agree. -/
theorem any_collides_eq_finds (db : Database) (info : SchemaInfo) :
    (db.schemas.any fun s => s.collides info) = db.finds info := by
  rw [Bool.eq_iff_iff, List.any_eq_true, finds, Bool.or_eq_true, Option.any_eq_true]
  simp only [SchemaInfo.collides_iff, isSome_findSchema?_iff]
  constructor
  · rintro ⟨s, hs, hname | ⟨name, halias, hname⟩⟩
    · exact .inl ⟨s, hs, hname⟩
    · exact .inr ⟨name, halias, s, hs, hname⟩
  · rintro (⟨s, hs, hname⟩ | ⟨name, halias, s, hs, hname⟩)
    · exact ⟨s, hs, .inl hname⟩
    · exact ⟨s, hs, .inr ⟨name, halias, hname⟩⟩

theorem Named.pairwise_isNamed (h : db.Named) :
    db.schemas.Pairwise fun s t => ∀ name, ¬ (s.isNamed name = true ∧ t.isNamed name = true) := by
  apply h.apart.imp
  intro s t hapart name hboth
  have hcollides := (SchemaInfo.collides_iff_shared s.toSchemaInfo t.toSchemaInfo).mpr ⟨name, hboth⟩
  rw [hapart] at hcollides
  cases hcollides

theorem Named.eq_of_isNamed (h : db.Named) (hs : s ∈ db.schemas) (ht : t ∈ db.schemas)
    (hsn : s.isNamed name = true) (htn : t.isNamed name = true) : s = t := by
  by_contra hne
  have symm : Std.Symm fun s t : Schema =>
      ∀ name, ¬ (s.isNamed name = true ∧ t.isNamed name = true) :=
    ⟨fun _ _ h name hn => h name hn.symm⟩
  exact h.pairwise_isNamed.forall hs ht hne name ⟨hsn, htn⟩

theorem Named.findSchema?_of_isNamed (h : db.Named) (hs : s ∈ db.schemas)
    (hn : s.isNamed name = true) : db.findSchema? name = some s :=
  find?_of_unique hs hn fun _ ht htn => h.eq_of_isNamed ht hs htn hn

theorem Named.unambiguous (h : db.Named) : db.Unambiguous where
  apart := h.pairwise_isNamed
  byName s hs := h.findSchema?_of_isNamed hs s.isNamed_name
  byAlias s hs name hname := h.findSchema?_of_isNamed hs ((s.isNamed_iff name).mpr (.inr hname))

/-- A schema that is added comes last, so that others keep what is found by them. -/
theorem findSchema?_addSchema (db : Database) (s : Schema) (name : String) :
    (db.addSchema s).findSchema? name =
      (db.findSchema? name).or (if s.isNamed name then some s else none) := by
  rw [findSchema?, addSchema, List.find?_append, List.find?_singleton]
  rfl

end Database

namespace Assembly

variable {a : Assembly} {i : Id .schema}

/-- With an identifier left, a new schema is rejected or added according to its names. -/
theorem run_pushSchema (hi : a.ids.peek .schema = some i) (info : SchemaInfo) (token : Span) :
    (pushSchema info token).run a =
      if a.database.finds info then
        (.error { cause := .duplicateSchema info.name, span := token },
          ⟨a.database, a.ids.advance .schema⟩)
      else
        (.ok { toSchemaInfo := info, id := i, token },
          ⟨a.database.addSchema { toSchemaInfo := info, id := i, token },
            a.ids.advance .schema⟩) := by
  unfold pushSchema
  split
  · rename_i hfinds
    apply insert_error
    rw [Attempt.run_bind_ok (issue_some hi), Database.any_collides_eq_finds, if_pos hfinds]
    rfl
  · rename_i hfinds
    apply insert_ok (d := ({ toSchemaInfo := info, id := i, token } : Schema))
    rw [Attempt.run_bind_ok (issue_some hi), Database.any_collides_eq_finds, if_neg hfinds]
    rfl

theorem run_pushSchema_none (hi : a.ids.peek .schema = none) (info : SchemaInfo) (token : Span) :
    (pushSchema info token).run a =
      (.error { cause := .idSpaceExhausted Kind.schema.counter a.ids.base }, a) :=
  insert_error (Attempt.run_bind_error (issue_none hi) _)

/-- The schemas that other names refer to are the same. -/
def AgreesBeyond (name : String) (a b : Assembly) : Prop :=
  ∀ other, other ≠ name → b.database.findSchema? other = a.database.findSchema? other

/-- What comes of a name that a schema is wanted for: the schema that the name refers to then, or
nothing where one would have to be created and no identifier is left. -/
structure Arrives (a : Assembly) (name : String) (i : Id .schema) (b : Assembly) : Prop where
  found : ∃ s, b.database.findSchema? name = some s ∧ s.id = i
  others : AgreesBeyond name a b

structure Strands (a : Assembly) (name : String) (r : Rejection) (b : Assembly) : Prop where
  kind : r.kind = .idSpaceExhausted
  missing : a.database.findSchema? name = none
  exhausted : a.ids.peek .schema = none
  same : ∀ other, b.database.findSchema? other = a.database.findSchema? other

/-- A schema that is created under a name that refers to none collides with none. -/
theorem meets_create {name : String} (hnone : a.database.findSchema? name = none)
    (note : Option String) :
    (do
      let s ← pushSchema { name, note } {}
      pure s.id : Construction (Id .schema)).Meets a (a.Arrives name) (a.Strands name) := by
  cases hi : a.ids.peek .schema with
  | none =>
    apply Attempt.meets_of_run_error (Attempt.run_bind_error (run_pushSchema_none hi _ _) _)
    exact ⟨rfl, hnone, hi, fun _ => rfl⟩
  | some i =>
    have hnew : a.database.finds { name, note } = false := by
      simp [Database.finds, hnone]
    have hrun := run_pushSchema hi { name, note } {}
    rw [hnew, if_neg Bool.false_ne_true] at hrun
    apply Attempt.meets_of_run_ok (Attempt.run_bind_ok hrun _)
    refine ⟨⟨_, ?_, rfl⟩, ?_⟩
    · rw [Database.findSchema?_addSchema, hnone, Option.none_or, if_pos (SchemaInfo.isNamed_name _)]
    · intro other hother
      have hunnamed : ¬ SchemaInfo.isNamed { name, note } other = true := by
        simpa [SchemaInfo.isNamed_iff] using hother.symm
      rw [Database.findSchema?_addSchema, if_neg hunnamed, Option.or_none]

theorem meets_getOrCreateSchema (a : Assembly) (name : String) :
    (getOrCreateSchema name).Meets a (a.Arrives name) (a.Strands name) := by
  unfold getOrCreateSchema
  apply Attempt.meets_state_bind
  dsimp only
  split
  · rename_i s hs
    split
    · exact ⟨⟨s, hs, rfl⟩, fun _ _ => rfl⟩
    · exact ⟨⟨s, hs, rfl⟩, fun _ _ => rfl⟩
  · rename_i hnone
    split
    · -- The mark that is set first is no part of looking up names.
      apply Attempt.Meets.bind (P := fun _ b => b = ⟨a.database.markDefault, a.ids⟩)
        (Attempt.meets_modify rfl)
      rintro _ _ rfl
      apply (meets_create (a := ⟨a.database.markDefault, a.ids⟩) hnone _).mono
      · exact fun i b h => ⟨h.found, h.others⟩
      · exact fun r b h => ⟨h.kind, h.missing, h.exhausted, h.same⟩
    · exact meets_create hnone none

/-- However schemas have come about, a name refers to one of them at most. A new schema that has got
an identifier is rejected exactly if its name or its alias is found, and a name for which a schema
is wanted gets one unless identifiers have run out. -/
theorem Reachable.unambiguous_schemas (h : a.Reachable) :
    a.database.Unambiguous ∧
      (∀ info token, (a.ids.peek .schema).isSome = true →
        ((∃ r b, (pushSchema info token).run a = (.error r, b) ∧ r.kind = .duplicateSchemaName) ↔
          a.database.finds info = true) ∧
        ((∃ s b, (pushSchema info token).run a = (.ok s, b) ∧
            b.database = a.database.addSchema s) ↔ a.database.finds info = false)) ∧
      ∀ name, (getOrCreateSchema name).Meets a (a.Arrives name) (a.Strands name) := by
  refine ⟨h.sound.named.unambiguous, ?_, a.meets_getOrCreateSchema⟩
  intro info token hsome
  obtain ⟨i, hi⟩ := Option.isSome_iff_exists.mp hsome
  rw [run_pushSchema hi]
  cases a.database.finds info with
  | true =>
    refine ⟨⟨fun _ => rfl, fun _ => ⟨_, _, rfl, rfl⟩⟩, ?_, Bool.noConfusion⟩
    rintro ⟨s, b, hrun, -⟩
    cases hrun
  | false =>
    refine ⟨⟨?_, Bool.noConfusion⟩, fun _ => rfl, fun _ => ⟨_, _, rfl, rfl⟩⟩
    rintro ⟨r, b, hrun, -⟩
    cases hrun

end Assembly

/-- A declared schema that records name by its alias, next to the default schema. -/
def Decl.Bundle.branches : Decl.Bundle where
  schemas := [{ name := "sales", aliasName := some "shop" }]
  tables := [{ name := "orders", schemaName := some "shop" }, { name := "users" }]

/-- A schema whose alias is that of another one is rejected, though its name is new. -/
theorem Assembly.unambiguous_branches : ∃ a, build .branches {} = .ok a ∧
    (a.after (.getOrCreateSchema "archive")).Reachable ∧
    (a.after (.getOrCreateSchema "archive")).database.Unambiguous ∧
    ∃ r b, (pushSchema { name := "stock", aliasName := some "shop" } {}).run
      (a.after (.getOrCreateSchema "archive")) = (.error r, b) ∧
        r.kind = .duplicateSchemaName := by
  have hbuilt : (build .branches {}).toOption.any (fun a =>
      let b := a.after (.getOrCreateSchema "archive")
      (b.ids.peek .schema).isSome &&
        b.database.finds { name := "stock", aliasName := some "shop" }) = true := by
    decide +kernel
  obtain ⟨a, ha, heval⟩ := exists_ok_of_any hbuilt
  obtain ⟨hroom, hfinds⟩ := Bool.and_eq_true_iff.mp heval
  have hreach : (a.after (.getOrCreateSchema "archive")).Reachable := .step (.build ha) trivial
  obtain ⟨hunambiguous, hpush, -⟩ := hreach.unambiguous_schemas
  exact ⟨a, ha, hreach, hunambiguous, (hpush _ _ hroom).1.mpr hfinds⟩

end Catalog
