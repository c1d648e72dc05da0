import Catalog.Export.Codec
import Catalog.Flat.Codec
import Catalog.Proofs.Json.Contents

/-!
The records of the export tree and of the flat model are restored.
-/
namespace Catalog.Export

open Json

instance {σ α : Type} (name : String) {get : σ → List α} {c : Codec α} {s : σ}
    [(Codec.list c).Restores (get s)] : (listField name get c).Restores s (get s) :=
  inferInstanceAs ((Record.required name get (.list c)).Restores s (get s))

instance (c : IndexColumnInfo) : columnCodec.Restores c :=
  Record.restores_codec (by decide) rfl

instance (v : EnumValueInfo) : enumValueCodec.Restores v :=
  Record.restores_codec (by decide) rfl

instance (e : EndpointInfo) : endpointCodec.Restores e :=
  Record.restores_codec (by decide) rfl

instance (t : TagInfo) : tagCodec.Restores t :=
  Record.restores_codec (by decide) rfl

instance (i : Index) : Index.codec.Restores i :=
  Record.restores_codec (by decide) rfl

instance (e : Enum) : Enum.codec.Restores e :=
  Record.restores_codec (by decide) rfl

instance (r : Ref) : Ref.codec.Restores r :=
  Record.restores_codec (by decide) rfl

instance (m : Member) : Member.codec.Restores m :=
  Record.restores_codec (by decide) rfl

instance (g : TableGroup) : TableGroup.codec.Restores g :=
  Record.restores_codec (by decide) rfl

instance (h : Header) : Header.record.Restores h h := by
  unfold Header.record
  exact .of_eq inferInstance rfl

/-! Records with fields, whose default values are plain. -/

theorem restores_fieldCodec {f : FieldInfo} (h : f.IsPlain) : fieldCodec.Restores f := by
  have hinfo : (FieldInfo.record .complete).Restores f f := FieldInfo.restores .complete h
  exact Record.restores_codec (by decide) rfl

def Table.IsPlain (t : Table) : Prop :=
  ∀ f ∈ t.fields, f.IsPlain

theorem Table.restores {t : Table} (h : t.IsPlain) : Table.codec.Restores t := by
  have hfields : ∀ f : { f // f ∈ t.fields }, fieldCodec.Restores f.val :=
    fun f => restores_fieldCodec (h f.val f.property)
  exact Record.restores_codec (by decide) rfl

def Schema.IsPlain (s : Schema) : Prop :=
  ∀ t ∈ s.tables, t.IsPlain

theorem Schema.restores {s : Schema} (h : s.IsPlain) : Schema.codec.Restores s := by
  have htables : ∀ t : { t // t ∈ s.tables }, Table.codec.Restores t.val :=
    fun t => Table.restores (h t.val t.property)
  exact Record.restores_codec (by decide) rfl

def Tree.IsPlain (t : Tree) : Prop :=
  ∀ s ∈ t.schemas, s.IsPlain

theorem Tree.restores {t : Tree} (h : t.IsPlain) : Tree.codec.Restores t := by
  have hschemas : ∀ s : { s // s ∈ t.schemas }, Schema.codec.Restores s.val :=
    fun s => Schema.restores (h s.val s.property)
  exact Record.restores_codec (by decide) rfl

end Catalog.Export

namespace Catalog.Flat

open Json

variable {σ : Type} {k : Kind} (name : String) {s : σ}

instance {get : σ → Id k} : (idField name get).Restores s (get s) :=
  inferInstanceAs ((Record.required name get .identifier).Restores s (get s))

instance {get : σ → List (Id k)} : (idsField name get).Restores s (get s) :=
  inferInstanceAs ((Record.required name get (.list .identifier)).Restores s (get s))

instance (d : Database) : Database.codec.Restores d :=
  Record.restores_codec (by decide) rfl

instance (s : Schema) : Schema.codec.Restores s :=
  Record.restores_codec (by decide) rfl

instance (t : Table) : Table.codec.Restores t :=
  Record.restores_codec (by decide) rfl

instance (i : Index) : Index.codec.Restores i :=
  Record.restores_codec (by decide) rfl

instance (c : IndexColumn) : IndexColumn.codec.Restores c :=
  Record.restores_codec (by decide) rfl

instance (e : Enum) : Enum.codec.Restores e :=
  Record.restores_codec (by decide) rfl

instance (v : EnumValue) : EnumValue.codec.Restores v :=
  Record.restores_codec (by decide) rfl

instance (r : Ref) : Ref.codec.Restores r :=
  Record.restores_codec (by decide) rfl

instance (e : Endpoint) : Endpoint.codec.Restores e :=
  Record.restores_codec (by decide) rfl

instance (g : TableGroup) : TableGroup.codec.Restores g :=
  Record.restores_codec (by decide) rfl

instance (t : Tag) : Tag.codec.Restores t :=
  Record.restores_codec (by decide) rfl

theorem Field.restores {f : Field} (h : f.IsPlain) : Field.codec.Restores f := by
  have hinfo : (FieldInfo.record .complete).Restores f.toFieldInfo f.toFieldInfo :=
    FieldInfo.restores .complete h
  exact Record.restores_codec (by decide) rfl

def Model.IsPlain (m : Model) : Prop :=
  ∀ e ∈ m.fields.entries, e.2.IsPlain

theorem Model.restores {m : Model} (h : m.IsPlain) : Model.codec.Restores m := by
  have hfields : ∀ e : { e // e ∈ m.fields.entries }, Field.codec.Restores e.val.2 :=
    fun e => Field.restores (h e.val e.property)
  exact Record.restores_codec (by decide) rfl

end Catalog.Flat
