import Catalog.Info
import Catalog.Json.Record
import Catalog.Source.Span

/-!
The JSON form of contents, as parts of the records that hold them.
-/
namespace Catalog

open Json (Codec Record)

/-- Declarations leave out what has no value and may leave out what has a default. Complete records
hold everything, with null for what has no value. -/
inductive Form where
  | declared
  | complete
  deriving DecidableEq, Repr

namespace Form

variable {σ α : Type}

def optional (form : Form) (name : String) (get : σ → Option α) (c : Codec α) :
    Record σ (Option α) :=
  match form with
  | declared => .optional name get c
  | complete => .nullable name get c

/-- A field that declarations may leave out. -/
def defaulted (form : Form) (name : String) (get : σ → α) (c : Codec α) (value : α) :
    Record σ α :=
  match form with
  | declared => .defaulted name get c value
  | complete => .required name get c

end Form

def Span.codec : Codec Span :=
  Record.codec "struct Span" <|
    Span.mk <$> .required "start" Span.start .uint64 <*> .required "end" Span.stop .uint64

/-- The field for the token of a declaration. -/
def tokenField {σ : Type} (get : σ → Span) : Record σ Span :=
  .defaulted "token" get Span.codec {}

def Relation.codec : Codec Relation :=
  .choice [("1", .one), ("*", .many)] fun
    | .one => "1"
    | .many => "*"

def FieldType.codec : Codec FieldType :=
  Record.codec "struct RawFieldType" <|
    FieldType.mk <$> .required "type_name" typeName .string
      <*> .optional "schemaName" schemaName .string
      <*> .optional "args" args .string

def FieldDefault.codec : Codec FieldDefault :=
  Record.codec "struct RawDefault" <|
    FieldDefault.mk <$> .required "type" valueType .string <*> .required "value" value .any

def FieldInfo.record (form : Form) : Record FieldInfo FieldInfo :=
  FieldInfo.mk <$> .required "name" name .string
    <*> .required "type" type FieldType.codec
    <*> form.defaulted "pk" pk .bool false
    <*> form.defaulted "unique" unique .bool false
    <*> form.optional "not_null" notNull .bool
    <*> form.defaulted "increment" increment .bool false
    <*> form.optional "note" note .string
    <*> form.optional "dbdefault" default FieldDefault.codec

def IndexInfo.record (form : Form) : Record IndexInfo IndexInfo :=
  IndexInfo.mk <$> form.optional "name" name .string
    <*> form.optional "type" type .string
    <*> form.defaulted "unique" unique .bool false
    <*> form.defaulted "pk" pk .bool false
    <*> form.optional "note" note .string

def IndexColumnInfo.record : Record IndexColumnInfo IndexColumnInfo :=
  IndexColumnInfo.mk <$> .required "type" type .string <*> .required "value" value .string

def EnumInfo.record (form : Form) : Record EnumInfo EnumInfo :=
  EnumInfo.mk <$> .required "name" name .string <*> form.optional "note" note .string

def EnumValueInfo.record (form : Form) : Record EnumValueInfo EnumValueInfo :=
  EnumValueInfo.mk <$> .required "name" name .string <*> form.optional "note" note .string

def RefInfo.record : Record RefInfo RefInfo :=
  RefInfo.mk <$> .nullable "name" name .string
    <*> .nullable "onDelete" onDelete .string
    <*> .nullable "onUpdate" onUpdate .string

def EndpointInfo.record (form : Form) : Record EndpointInfo EndpointInfo :=
  EndpointInfo.mk <$> form.optional "schemaName" schemaName .string
    <*> .required "tableName" tableName .string
    <*> .required "fieldNames" fieldNames (.list .string)
    <*> form.defaulted "relation" relation Relation.codec .one

def TableInfo.record : Record TableInfo TableInfo :=
  TableInfo.mk <$> .required "name" name .string
    <*> .nullable "alias" aliasName .string
    <*> .nullable "note" note .string
    <*> .nullable "headerColor" headerColor .string

/-- Complete records give the note before the alias. -/
def SchemaInfo.record : Record SchemaInfo SchemaInfo :=
  (fun name note aliasName => ⟨name, aliasName, note⟩) <$> .required "name" name .string
    <*> .nullable "note" note .string
    <*> .nullable "alias" aliasName .string

def TableGroupInfo.record : Record TableGroupInfo TableGroupInfo :=
  TableGroupInfo.mk <$> .required "name" name .string <*> .nullable "note" note .string

def TagInfo.record : Record TagInfo TagInfo :=
  TagInfo.mk <$> .required "name" name .string
    <*> .nullable "note" note .string
    <*> .nullable "color" color .string

end Catalog
