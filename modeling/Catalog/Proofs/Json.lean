import Catalog.Proofs.Json.Declarations
import Catalog.Proofs.Json.Views
import Catalog.Proofs.Mirror.Build
import Catalog.Render

/-!
Reading back what has been written: the text of a bundle and of both views of a database decodes to
the value that it was written from, in either layout, where the default values of fields are plain
and nesting does not go too deep.
-/
namespace Catalog

open Json

namespace Json

/-- A codec reads the texts that it writes of values that it restores. -/
theorem Codec.ofText_text {α : Type} {c : Codec α} {a : α} [h : c.Restores a]
    (hdepth : (c.encode a).depth ≤ nestingLimit) (l : Layout) : c.ofText (c.text l a) = .ok a := by
  obtain ⟨n, hread, hsays⟩ := readText_write l h.whole
  simp only [ofText, text, Json.text, String.toList_ofList, hread, bind, Except.bind,
    h.decode hsays hdepth]
  rfl

theorem newline_notMem_text (j : Json) : '\n' ∉ (j.text .compact).toList := by
  rw [text, String.toList_ofList]
  exact newline_notMem_write 0 j

end Json

theorem Bucket.mem_of_mem_ofList {k : Kind} {α : Type} {es : List (Id k × α)} {e : Id k × α}
    (h : e ∈ (ofList es).entries) : e ∈ es := by
  have hfold : ∀ (es : List (Id k × α)) (b : Bucket k α),
      e ∈ (es.foldl (fun b e => b.insert e.1 e.2) b).entries → e ∈ b.entries ∨ e ∈ es := by
    intro es
    induction es with
    | nil => exact fun b hb => .inl hb
    | cons f es ih =>
      intro b hb
      rcases ih _ hb with hb | hes
      · rcases mem_insertEntry hb with rfl | hb
        · exact .inr List.mem_cons_self
        · exact .inl hb
      · exact .inr (List.mem_cons_of_mem _ hes)
  exact (hfold es {} h).resolve_left List.not_mem_nil

namespace Database

/-- The default values of all fields are plain. -/
def IsPlain (db : Database) : Prop :=
  ∀ f ∈ db.fields, f.IsPlain

instance (db : Database) : Decidable db.IsPlain :=
  inferInstanceAs (Decidable (∀ f ∈ db.fields, f.IsPlain))

variable {db : Database} (h : db.IsPlain)
include h

theorem IsPlain.toExport : db.toExport.IsPlain := by
  intro s' hs' t' ht' f' hf'
  obtain ⟨s, hs, rfl⟩ := List.mem_map.mp hs'
  obtain ⟨t, ht, rfl⟩ := List.mem_map.mp ht'
  obtain ⟨f, hf, rfl⟩ := List.mem_map.mp hf'
  exact h f (List.mem_flatMap.mpr ⟨t, List.mem_flatMap.mpr ⟨s, hs, ht⟩, hf⟩)

theorem IsPlain.normalize : db.normalize.IsPlain := by
  intro e he
  obtain ⟨t, ht, he⟩ := List.mem_flatMap.mp (Bucket.mem_of_mem_ofList he)
  obtain ⟨f, hf, rfl⟩ := List.mem_map.mp he
  exact h f (List.mem_flatMap.mpr ⟨t, ht, hf⟩)

end Database

/-- Text that was written decodes to what it was written from: a bundle of declarations, the export
tree and the flat model. In the compact layout the text of a view is one line, whatever numbers it
has. -/
theorem decodes_what_was_written :
    (∀ b : Decl.Bundle, b.IsPlain → (Decl.Bundle.codec.encode b).depth ≤ nestingLimit →
      ∀ l, Decl.Bundle.codec.ofText (Decl.Bundle.codec.text l b) = .ok b) ∧
    (∀ db : Database, db.IsPlain →
      (Export.Tree.codec.encode db.toExport).depth ≤ nestingLimit →
      ∀ l, Export.Tree.codec.ofText (db.render .tree l) = .ok db.toExport) ∧
    (∀ db : Database, db.IsPlain →
      (Flat.Model.codec.encode db.normalize).depth ≤ nestingLimit →
      ∀ l, Flat.Model.codec.ofText (db.render .flat l) = .ok db.normalize) ∧
    ∀ db : Database, '\n' ∉ (db.render .tree .compact).toList ∧
      '\n' ∉ (db.render .flat .compact).toList := by
  refine ⟨?bundle, ?tree, ?flat, ?line⟩
  case bundle =>
    intro b hb hdepth l
    have hrestores := Decl.Bundle.restores hb
    exact Codec.ofText_text hdepth l
  case tree =>
    intro db hdb hdepth l
    have hrestores := Export.Tree.restores hdb.toExport
    exact Codec.ofText_text hdepth l
  case flat =>
    intro db hdb hdepth l
    have hrestores := Flat.Model.restores hdb.normalize
    exact Codec.ofText_text hdepth l
  case line => exact fun db => ⟨newline_notMem_text _, newline_notMem_text _⟩

/-- A table whose fields have all sorts of plain default values. -/
def Decl.Bundle.stamps : Bundle where
  schemas :=
    [{ name := "mail", aliasName := some "\\post\"",
       tables := [{ name := "stamp", note := some "one\nto a \t letter", fields :=
        [{ name := "marks", type := { typeName := "json" }, default := some
            { valueType := "expression", value := (.object
              [("\x00", .array [.null, .bool true, .number (.int (-9223372036854775808))]),
               ("ink", .object [("Ж", .number (.int 18446744073709551615))])]) } },
         { name := "price", type := { typeName := "int" }, notNull := some false, token := ⟨3, 8⟩,
           default := some { valueType := "string", value := .string "\u2028\x7f" } }] }] }]
  tables := [{ name := "letter", schemaName := some "mail", tags := [{ name := "heavy" }] }]

/-- The stamps come back from their declarations and from both views. -/
theorem decodes_what_was_written_stamps :
    Decl.Bundle.codec.ofText (Decl.Bundle.codec.text .indented .stamps) = .ok .stamps ∧
    ∃ db, Database.build .stamps {} = .ok db ∧ db.fields.map (·.default.isSome) = [true, true] ∧
      Export.Tree.codec.ofText (db.render .tree .indented) = .ok db.toExport ∧
      Flat.Model.codec.ofText (db.render .flat .compact) = .ok db.normalize := by
  obtain ⟨hbundle, htree, hflat, -⟩ := decodes_what_was_written
  refine ⟨hbundle .stamps (by decide +kernel) (by decide +kernel) .indented, ?_⟩
  have hbuilt : (Database.build .stamps {}).toOption.any (fun db =>
      decide (db.fields.map (·.default.isSome) = [true, true] ∧ db.IsPlain ∧
        (Export.Tree.codec.encode db.toExport).depth ≤ nestingLimit ∧
        (Flat.Model.codec.encode db.normalize).depth ≤ nestingLimit)) = true := by
    decide +kernel
  obtain ⟨db, hdb, heval⟩ := Database.exists_build_of_any hbuilt
  obtain ⟨hfields, hplain, htree', hflat'⟩ := of_decide_eq_true heval
  exact ⟨db, hdb, hfields, htree db hplain htree' .indented, hflat db hplain hflat' .compact⟩

end Catalog
