import Catalog.Export
import Catalog.Info.Codec

/-!
The JSON form of the export tree. Everything is written; what has no value is null.
-/
namespace Catalog.Export

open Json (Codec Record)

def listField {σ α : Type} (name : String) (get : σ → List α) (c : Codec α) : Record σ (List α) :=
  .required name get (.list c)

def fieldCodec : Codec FieldInfo :=
  Record.codec "struct FieldExport" (FieldInfo.record .complete)

def columnCodec : Codec IndexColumnInfo :=
  Record.codec "struct IndexColumnExport" IndexColumnInfo.record

def enumValueCodec : Codec EnumValueInfo :=
  Record.codec "struct EnumValueExport" (EnumValueInfo.record .complete)

def endpointCodec : Codec EndpointInfo :=
  Record.codec "struct EndpointExport" (EndpointInfo.record .complete)

def tagCodec : Codec TagInfo :=
  Record.codec "struct TagExport" TagInfo.record

def Index.codec : Codec Index :=
  Record.codec "struct IndexExport" <|
    Index.mk <$> (IndexInfo.record .complete).within toIndexInfo
      <*> listField "columns" columns columnCodec

def Table.codec : Codec Table :=
  Record.codec "struct TableExport" <|
    Table.mk <$> TableInfo.record.within toTableInfo
      <*> listField "fields" fields fieldCodec
      <*> listField "indexes" indexes Index.codec
      <*> listField "tags" tags .string

def Enum.codec : Codec Enum :=
  Record.codec "struct EnumExport" <|
    Enum.mk <$> (EnumInfo.record .complete).within toEnumInfo
      <*> listField "values" values enumValueCodec

def Ref.codec : Codec Ref :=
  Record.codec "struct RefExport" <|
    Ref.mk <$> RefInfo.record.within toRefInfo
      <*> listField "endpoints" endpoints endpointCodec

def Member.codec : Codec Member :=
  Record.codec "struct TableGroupMemberExport" <|
    Member.mk <$> .required "tableName" tableName .string
      <*> .required "schemaName" schemaName .string

def TableGroup.codec : Codec TableGroup :=
  Record.codec "struct TableGroupExport" <|
    TableGroup.mk <$> TableGroupInfo.record.within toTableGroupInfo
      <*> listField "tables" tables Member.codec

def Schema.codec : Codec Schema :=
  Record.codec "struct SchemaExport" <|
    Schema.mk <$> SchemaInfo.record.within toSchemaInfo
      <*> listField "tables" tables Table.codec
      <*> listField "enums" enums Enum.codec
      <*> listField "tableGroups" tableGroups TableGroup.codec
      <*> listField "refs" refs Ref.codec
      <*> listField "tags" tags tagCodec

def Header.record : Record Header Header :=
  (fun hasDefaultSchema note databaseType name => { name, note, databaseType, hasDefaultSchema })
  <$> .required "hasDefaultSchema" hasDefaultSchema .bool
  <*> .nullable "note" (·.note) .string
  <*> .nullable "databaseType" (·.databaseType) .string
  <*> .nullable "name" (·.name) .string

def Header.codec : Codec Header :=
  Record.codec "struct DatabaseShallowExport" Header.record

def Tree.codec : Codec Tree :=
  Record.codec "struct DatabaseExport" <|
    Tree.mk <$> Header.record.within toHeader <*> listField "schemas" schemas Schema.codec

end Catalog.Export
