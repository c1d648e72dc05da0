import Catalog.Proofs.Integrity.Told

/-!
What a change makes of the schemas. One of them may get one more entity; apart from that, links are
drawn between the tables and enums that are there, and an empty schema may be added.
-/
namespace Catalog

variable {m : Remit} {a b : Assembly}

def Schema.relink (s : Schema) (f : Table → Table) (g : Enum → Enum) : Schema :=
  { s with tables := s.tables.map f, enums := s.enums.map g }

/-- The schemas that there may be after a change within a remit. -/
inductive Assembly.Yields (m : Remit) (a : Assembly) : Schema → Prop
  | empty (info : SchemaInfo) (id : Id .schema) (token : Span) :
      Yields m a { toSchemaInfo := info, id, token }
  | same {s : Schema} {f : Table → Table} {g : Enum → Enum} (hs : s ∈ a.database.schemas)
      (hf : ∀ t, (f t).Agrees t) (hg : ∀ e, (g e).Agrees e) : Yields m a (s.relink f g)
  | grown {s : Schema} {e : Entity} {f : Table → Table} {g : Enum → Enum}
      (hs : s ∈ a.database.schemas) (hm : m.inserts s e) (hfits : e.Fits a.database s)
      (hf : ∀ t, (f t).Agrees t) (hg : ∀ e, (g e).Agrees e) :
      Yields m a (((s.relink e.tie fun e => e).insert e).relink f g)

theorem Table.Agrees.trans {t t' t'' : Table} (h : t.Agrees t') (h' : t'.Agrees t'') :
    t.Agrees t'' where
  id := h.id.trans h'.id
  declared := h.declared.trans h'.declared
  numbers k := (h.numbers k).trans (h'.numbers k)
  tags := h.tags.trans h'.tags
  fields := h.fields.trans h'.fields

/-- Besides the entity that is placed, links are drawn at most. -/
theorem Database.commit_eq_relink (db : Database) (id : Id .schema) (e : Entity) : ∃ f g,
    db.commit id e = (db.place id e).relink f g ∧ (∀ t, (f t).Agrees t) ∧ ∀ e, (g e).Agrees e := by
  rcases db.commit_cases id e with ⟨-, heq⟩ | ⟨en, -, -, heq⟩
  · refine ⟨fun t => t, fun e => e, ?_, fun t => ⟨rfl, rfl, fun _ => rfl, rfl, rfl⟩,
      fun e => ⟨rfl, fun _ => rfl⟩⟩
    rw [heq, relink_self]
  · obtain ⟨f, g, hbind, hf, hg⟩ := (db.place id e).bindEnum_eq_relink en.id
    exact ⟨f, g, heq.trans hbind, fun t => (hf t).1, hg⟩

namespace Assembly

theorem yields_of_mem {s : Schema} (hs : s ∈ a.database.schemas) : a.Yields m s := by
  have hsame : s.relink (fun t => t) (fun e => e) = s := by simp [Schema.relink]
  rw [← hsame]
  exact .same hs (fun t => ⟨rfl, rfl, fun _ => rfl, rfl, rfl⟩) fun e => ⟨rfl, fun _ => rfl⟩

/-- An entity goes into the schema that it is for, and into no other one. -/
theorem Numbered.schemas_place (hn : a.Numbered) {s s' : Schema} {e : Entity}
    (hs : s ∈ a.database.schemas) (hs' : s' ∈ (a.database.place s.id e).schemas) :
    s' = (s.relink e.tie fun e => e).insert e ∨
      ∃ t ∈ a.database.schemas, s' = t.relink e.tie fun e => e := by
  obtain ⟨t', ht', rfl⟩ := Database.mem_updateSchema.mp hs'
  obtain ⟨t, ht, rfl⟩ := Database.mem_relink.mp ht'
  split
  · rename_i hid
    rw [Database.eq_of_schema_id (hn.nodup .schema) ht hs hid]
    exact .inl rfl
  · exact .inr ⟨t, ht, rfl⟩

theorem Numbered.yields (hn : a.Numbered) (hab : Change m a b) {s' : Schema}
    (hs' : s' ∈ b.database.schemas) : a.Yields m s' := by
  cases hab with
  | spend h =>
    rw [h.database] at hs'
    exact yields_of_mem hs'
  | mark => exact yields_of_mem hs'
  | opens h =>
    rw [h.database] at hs'
    rcases Database.mem_addSchema.mp hs' with hs' | rfl
    · exact yields_of_mem hs'
    · rw [h.empty]
      exact .empty _ _ _
  | @inserts s e _ h hm =>
    obtain ⟨f, g, heq, hf, hg⟩ := a.database.commit_eq_relink s.id e
    rw [h.database, heq] at hs'
    obtain ⟨t', ht', rfl⟩ := Database.mem_relink.mp hs'
    rcases hn.schemas_place h.schema ht' with rfl | ⟨t, ht, rfl⟩
    · exact .grown h.schema hm h.fits hf hg
    · have hboth : (t.relink e.tie fun e => e).relink f g = t.relink (f ∘ e.tie) g := by
        simp [Schema.relink]
      change a.Yields m ((t.relink e.tie fun e => e).relink f g)
      rw [hboth]
      exact .same ht (fun t => (hf (e.tie t)).trans (e.agrees_tie t)) hg
  | bindEnum i =>
    rw [Database.bindEnum_eq] at hs'
    obtain ⟨s, hs, rfl⟩ := Database.mem_relink.mp hs'
    exact .same hs (a.database.agrees_linkEnum i) (a.database.agrees_collectFields i)

end Assembly

end Catalog
