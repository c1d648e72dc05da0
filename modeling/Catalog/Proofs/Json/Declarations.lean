import Catalog.Declaration.Codec
import Catalog.Proofs.Json.Contents

/-!
Declarations are restored.
-/
namespace Catalog.Decl

open Json

instance {σ α : Type} (name : String) {get : σ → List α} {c : Codec α} {s : σ}
    [(Codec.list c).Restores (get s)] : (listField name get c).Restores s (get s) :=
  inferInstanceAs ((Record.defaulted name get (.list c) []).Restores s (get s))

/-! Declarations without fields. -/

instance (c : IndexColumn) : IndexColumn.codec.Restores c :=
  Record.restores_codec (by decide) rfl

instance (i : Index) : Index.codec.Restores i :=
  Record.restores_codec (by decide) rfl

instance (m : Mention) : Mention.codec.Restores m :=
  Record.restores_codec (by decide) rfl

instance (v : EnumValue) : EnumValue.codec.Restores v :=
  Record.restores_codec (by decide) rfl

instance (e : Enum) : Enum.codec.Restores e :=
  Record.restores_codec (by decide) rfl

instance (e : Endpoint) : Endpoint.codec.Restores e :=
  Record.restores_codec (by decide) rfl

instance (r : Ref) : Ref.codec.Restores r :=
  Record.restores_codec (by decide) rfl

instance (m : Member) : Member.codec.Restores m :=
  Record.restores_codec (by decide) rfl

instance (g : TableGroup) : TableGroup.codec.Restores g :=
  Record.restores_codec (by decide) rfl

instance (t : Tag) : Tag.codec.Restores t :=
  Record.restores_codec (by decide) rfl

instance (d : DatabaseInfo) : projectCodec.Restores d :=
  Record.restores_codec (by decide) rfl

/-! Declarations with fields, whose default values are plain. -/

theorem Field.restores {f : Field} (h : f.IsPlain) : Field.codec.Restores f := by
  have hinfo : (FieldInfo.record .declared).Restores f.toFieldInfo f.toFieldInfo :=
    FieldInfo.restores .declared h
  exact Record.restores_codec (by decide) rfl

def Table.IsPlain (t : Table) : Prop :=
  ∀ f ∈ t.fields, f.IsPlain

instance (t : Table) : Decidable t.IsPlain :=
  inferInstanceAs (Decidable (∀ f ∈ t.fields, f.IsPlain))

theorem Table.restores {t : Table} (h : t.IsPlain) : Table.codec.Restores t := by
  have hfields : ∀ f : { f // f ∈ t.fields }, Field.codec.Restores f.val :=
    fun f => Field.restores (h f.val f.property)
  exact Record.restores_codec (by decide) rfl

def Schema.IsPlain (s : Schema) : Prop :=
  ∀ t ∈ s.tables, t.IsPlain

instance (s : Schema) : Decidable s.IsPlain :=
  inferInstanceAs (Decidable (∀ t ∈ s.tables, t.IsPlain))

theorem Schema.restores {s : Schema} (h : s.IsPlain) : Schema.codec.Restores s := by
  have htables : ∀ t : { t // t ∈ s.tables }, Table.codec.Restores t.val :=
    fun t => Table.restores (h t.val t.property)
  exact Record.restores_codec (by decide) rfl

/-- All default values are plain, those of nested tables too. -/
structure Bundle.IsPlain (b : Bundle) : Prop where
  schemas : ∀ s ∈ b.schemas, s.IsPlain
  tables : ∀ t ∈ b.tables, t.IsPlain

instance (b : Bundle) : Decidable b.IsPlain :=
  decidable_of_iff ((∀ s ∈ b.schemas, s.IsPlain) ∧ ∀ t ∈ b.tables, t.IsPlain)
    ⟨fun h => ⟨h.1, h.2⟩, fun h => ⟨h.schemas, h.tables⟩⟩

theorem Bundle.restores {b : Bundle} (h : b.IsPlain) : Bundle.codec.Restores b := by
  have hschemas : ∀ s : { s // s ∈ b.schemas }, Schema.codec.Restores s.val :=
    fun s => Schema.restores (h.schemas s.val s.property)
  have htables : ∀ t : { t // t ∈ b.tables }, Table.codec.Restores t.val :=
    fun t => Table.restores (h.tables t.val t.property)
  exact Record.restores_codec (by decide) rfl

end Catalog.Decl
