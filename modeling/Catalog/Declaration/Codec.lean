import Catalog.Declaration
import Catalog.Info.Codec

/-!
The JSON form of declarations. Fields without a value are left out, and lists, flags and tokens
that are absent are empty, false and zero.
-/
namespace Catalog.Decl

open Json (Codec Record)

/-- A list that may be left out. -/
def listField {σ α : Type} (name : String) (get : σ → List α) (c : Codec α) : Record σ (List α) :=
  .defaulted name get (.list c) []

def Field.codec : Codec Field :=
  Record.codec "struct RawField" <|
    Field.mk <$> (FieldInfo.record .declared).within toFieldInfo <*> tokenField token

def IndexColumn.codec : Codec IndexColumn :=
  Record.codec "struct RawIndexColumn" <|
    IndexColumn.mk <$> IndexColumnInfo.record.within toIndexColumnInfo <*> tokenField token

def Index.codec : Codec Index :=
  Record.codec "struct RawIndex" <|
    Index.mk <$> (IndexInfo.record .declared).within toIndexInfo
      <*> listField "columns" columns IndexColumn.codec
      <*> tokenField token

def Mention.codec : Codec Mention :=
  Record.codec "struct RawTagRef" <|
    Mention.mk <$> .required "name" name .string <*> tokenField token

def Table.codec : Codec Table :=
  Record.codec "struct RawTable" <|
    (fun name schemaName aliasName note headerColor fields indexes tags token =>
      { name, aliasName, note, headerColor, schemaName, fields, indexes, tags, token })
    <$> .required "name" (·.name) .string
    <*> .optional "schemaName" schemaName .string
    <*> .optional "alias" (·.aliasName) .string
    <*> .optional "note" (·.note) .string
    <*> .optional "headerColor" (·.headerColor) .string
    <*> listField "fields" fields Field.codec
    <*> listField "indexes" indexes Index.codec
    <*> listField "tags" tags Mention.codec
    <*> tokenField token

def EnumValue.codec : Codec EnumValue :=
  Record.codec "struct RawEnumValue" <|
    EnumValue.mk <$> (EnumValueInfo.record .declared).within toEnumValueInfo <*> tokenField token

def Enum.codec : Codec Enum :=
  Record.codec "struct RawEnum" <|
    (fun name schemaName note values token => { name, note, schemaName, values, token })
    <$> .required "name" (·.name) .string
    <*> .optional "schemaName" schemaName .string
    <*> .optional "note" (·.note) .string
    <*> listField "values" values EnumValue.codec
    <*> tokenField token

def Endpoint.codec : Codec Endpoint :=
  Record.codec "struct RawEndpoint" <|
    Endpoint.mk <$> (EndpointInfo.record .declared).within toEndpointInfo <*> tokenField token

def Ref.codec : Codec Ref :=
  Record.codec "struct RawRef" <|
    (fun name schemaName endpoints onDelete onUpdate token =>
      { name, onDelete, onUpdate, schemaName, endpoints, token })
    <$> .optional "name" (·.name) .string
    <*> .optional "schemaName" schemaName .string
    <*> listField "endpoints" endpoints Endpoint.codec
    <*> .optional "onDelete" (·.onDelete) .string
    <*> .optional "onUpdate" (·.onUpdate) .string
    <*> tokenField token

def Member.codec : Codec Member :=
  Record.codec "struct RawTableGroupMember" <|
    Member.mk <$> .required "name" name .string
      <*> .optional "schemaName" schemaName .string
      <*> tokenField token

def TableGroup.codec : Codec TableGroup :=
  Record.codec "struct RawTableGroup" <|
    (fun name schemaName note tables token => { name, note, schemaName, tables, token })
    <$> .required "name" (·.name) .string
    <*> .optional "schemaName" schemaName .string
    <*> .optional "note" (·.note) .string
    <*> listField "tables" tables Member.codec
    <*> tokenField token

def Tag.codec : Codec Tag :=
  Record.codec "struct RawTag" <|
    (fun name schemaName note color token => { name, note, color, schemaName, token })
    <$> .required "name" (·.name) .string
    <*> .optional "schemaName" schemaName .string
    <*> .optional "note" (·.note) .string
    <*> .optional "color" (·.color) .string
    <*> tokenField token

def Schema.codec : Codec Schema :=
  Record.codec "struct RawSchema" <|
    (fun name aliasName note tables refs enums tags tableGroups token =>
      { name, aliasName, note, tables, refs, enums, tags, tableGroups, token })
    <$> .required "name" (·.name) .string
    <*> .optional "alias" (·.aliasName) .string
    <*> .optional "note" (·.note) .string
    <*> listField "tables" tables Table.codec
    <*> listField "refs" refs Ref.codec
    <*> listField "enums" enums Enum.codec
    <*> listField "tags" tags Tag.codec
    <*> listField "tableGroups" tableGroups TableGroup.codec
    <*> tokenField token

def projectCodec : Codec DatabaseInfo :=
  Record.codec "struct RawProject" <|
    DatabaseInfo.mk <$> .optional "name" (·.name) .string
      <*> .optional "note" (·.note) .string
      <*> .optional "database_type" (·.databaseType) .string

def Bundle.codec : Codec Bundle :=
  Record.codec "struct RawDatabase" <|
    Bundle.mk <$> listField "schemas" schemas Schema.codec
      <*> listField "tables" tables Table.codec
      <*> listField "enums" enums Enum.codec
      <*> listField "refs" refs Ref.codec
      <*> listField "tableGroups" tableGroups TableGroup.codec
      <*> listField "tags" tags Tag.codec
      <*> .defaulted "project" project projectCodec {}

end Catalog.Decl
