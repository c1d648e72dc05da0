import Catalog.Info.Codec
import Catalog.Proofs.Json.Records

/-!
The contents of entities are restored, declared and complete.
-/
namespace Catalog

open Json

namespace Form

variable {σ α : Type} (form : Form) (name : String) (c : Codec α) {s : σ}

instance {get : σ → Option α} [c.nullable.Restores (get s)] :
    (form.optional name get c).Restores s (get s) := by
  cases form with
  | declared => exact inferInstanceAs ((Record.optional name get c).Restores s (get s))
  | complete => exact inferInstanceAs ((Record.nullable name get c).Restores s (get s))

instance {get : σ → α} [c.Restores (get s)] (value : α) :
    (form.defaulted name get c value).Restores s (get s) := by
  cases form with
  | declared => exact inferInstanceAs ((Record.defaulted name get c value).Restores s (get s))
  | complete => exact inferInstanceAs ((Record.required name get c).Restores s (get s))

end Form

instance (s : Span) : Span.codec.Restores s :=
  Record.restores_codec (by decide) rfl

instance {σ : Type} {get : σ → Span} {s : σ} : (tokenField get).Restores s (get s) :=
  inferInstanceAs ((Record.defaulted "token" get Span.codec {}).Restores s (get s))

instance (r : Relation) : Relation.codec.Restores r :=
  Codec.restores_choice (by cases r <;> rfl)

instance (t : FieldType) : FieldType.codec.Restores t :=
  Record.restores_codec (by decide) rfl

/-! A default value may be any JSON value but for numbers that only doubles can hold. -/

theorem FieldDefault.restores {d : FieldDefault} (h : d.value.IsPlain) :
    FieldDefault.codec.Restores d := by
  have hvalue : Codec.any.Restores d.value := h.restores
  exact Record.restores_codec (by decide) rfl

instance : FieldDefault.codec.Solid :=
  inferInstanceAs (Record.codec _ _).Solid

namespace FieldInfo

/-- The default value, if there is one, is plain. -/
def IsPlain (f : FieldInfo) : Prop :=
  ∀ d ∈ f.default, d.value.IsPlain

instance (f : FieldInfo) : Decidable f.IsPlain :=
  inferInstanceAs (Decidable (∀ d ∈ f.default, d.value.IsPlain))

theorem restores {f : FieldInfo} (form : Form) (h : f.IsPlain) : (record form).Restores f f := by
  have hdefault : ∀ d : { d // d ∈ f.default }, FieldDefault.codec.Restores d.val :=
    fun d => FieldDefault.restores (h d.val d.property)
  unfold record
  exact .of_eq inferInstance rfl

end FieldInfo

instance (form : Form) (i : IndexInfo) : (IndexInfo.record form).Restores i i := by
  unfold IndexInfo.record
  exact .of_eq inferInstance rfl

instance (i : IndexColumnInfo) : IndexColumnInfo.record.Restores i i := by
  unfold IndexColumnInfo.record
  exact .of_eq inferInstance rfl

instance (form : Form) (e : EnumInfo) : (EnumInfo.record form).Restores e e := by
  unfold EnumInfo.record
  exact .of_eq inferInstance rfl

instance (form : Form) (v : EnumValueInfo) : (EnumValueInfo.record form).Restores v v := by
  unfold EnumValueInfo.record
  exact .of_eq inferInstance rfl

instance (r : RefInfo) : RefInfo.record.Restores r r := by
  unfold RefInfo.record
  exact .of_eq inferInstance rfl

instance (form : Form) (e : EndpointInfo) : (EndpointInfo.record form).Restores e e := by
  unfold EndpointInfo.record
  exact .of_eq inferInstance rfl

instance (t : TableInfo) : TableInfo.record.Restores t t := by
  unfold TableInfo.record
  exact .of_eq inferInstance rfl

instance (s : SchemaInfo) : SchemaInfo.record.Restores s s := by
  unfold SchemaInfo.record
  exact .of_eq inferInstance rfl

instance (g : TableGroupInfo) : TableGroupInfo.record.Restores g g := by
  unfold TableGroupInfo.record
  exact .of_eq inferInstance rfl

instance (t : TagInfo) : TagInfo.record.Restores t t := by
  unfold TagInfo.record
  exact .of_eq inferInstance rfl

end Catalog
