import Catalog.Flat
import Catalog.Flat.Bucket.Codec
import Catalog.Info.Codec

/-!
The JSON form of the flat model: an object of buckets, each an object with identifiers as keys.
-/
namespace Catalog.Flat

open Json (Codec Record)

def idField {σ : Type} {k : Kind} (name : String) (get : σ → Id k) : Record σ (Id k) :=
  .required name get .identifier

def idsField {σ : Type} {k : Kind} (name : String) (get : σ → List (Id k)) :
    Record σ (List (Id k)) :=
  .required name get (.list .identifier)

def Database.codec : Codec Database :=
  Record.codec "struct NormalizedDatabase" <|
    (fun id hasDefaultSchema note databaseType name schemaIds =>
      { name, note, databaseType, id, hasDefaultSchema, schemaIds })
    <$> idField "id" id
    <*> .required "hasDefaultSchema" hasDefaultSchema .bool
    <*> .nullable "note" (·.note) .string
    <*> .nullable "databaseType" (·.databaseType) .string
    <*> .nullable "name" (·.name) .string
    <*> idsField "schemaIds" schemaIds

def Schema.codec : Codec Schema :=
  Record.codec "struct NormalizedSchema" <|
    (fun id info => Schema.mk info id)
    <$> idField "id" id
    <*> SchemaInfo.record.within toSchemaInfo
    <*> idsField "tableIds" tableIds
    <*> idsField "enumIds" enumIds
    <*> idsField "tableGroupIds" tableGroupIds
    <*> idsField "refIds" refIds
    <*> idsField "tagIds" tagIds
    <*> idField "databaseId" databaseId

def Table.codec : Codec Table :=
  Record.codec "struct NormalizedTable" <|
    (fun id info => Table.mk info id)
    <$> idField "id" id
    <*> TableInfo.record.within toTableInfo
    <*> idsField "fieldIds" fieldIds
    <*> idsField "indexIds" indexIds
    <*> idsField "tagIds" tagIds
    <*> idField "schemaId" schemaId
    <*> .nullable "groupId" groupId .identifier

def Field.codec : Codec Field :=
  Record.codec "struct NormalizedField" <|
    (fun id info => Field.mk info id)
    <$> idField "id" id
    <*> (FieldInfo.record .complete).within toFieldInfo
    <*> idsField "endpointIds" endpointIds
    <*> idField "tableId" tableId
    <*> .nullable "enumId" enumId .identifier

def Index.codec : Codec Index :=
  Record.codec "struct NormalizedIndex" <|
    (fun id info => Index.mk info id)
    <$> idField "id" id
    <*> (IndexInfo.record .complete).within toIndexInfo
    <*> idsField "columnIds" columnIds
    <*> idField "tableId" tableId

def IndexColumn.codec : Codec IndexColumn :=
  Record.codec "struct NormalizedIndexColumn" <|
    (fun id info => IndexColumn.mk info id)
    <$> idField "id" id
    <*> IndexColumnInfo.record.within toIndexColumnInfo
    <*> idField "indexId" indexId

def Enum.codec : Codec Enum :=
  Record.codec "struct NormalizedEnum" <|
    (fun id info => Enum.mk info id)
    <$> idField "id" id
    <*> (EnumInfo.record .complete).within toEnumInfo
    <*> idsField "valueIds" valueIds
    <*> idsField "fieldIds" fieldIds
    <*> idField "schemaId" schemaId

def EnumValue.codec : Codec EnumValue :=
  Record.codec "struct NormalizedEnumValue" <|
    (fun id info => EnumValue.mk info id)
    <$> idField "id" id
    <*> (EnumValueInfo.record .complete).within toEnumValueInfo
    <*> idField "enumId" enumId

def Ref.codec : Codec Ref :=
  Record.codec "struct NormalizedRef" <|
    (fun id info => Ref.mk info id)
    <$> idField "id" id
    <*> RefInfo.record.within toRefInfo
    <*> idsField "endpointIds" endpointIds
    <*> idField "schemaId" schemaId

def Endpoint.codec : Codec Endpoint :=
  Record.codec "struct NormalizedEndpoint" <|
    (fun id info => Endpoint.mk info id)
    <$> idField "id" id
    <*> (EndpointInfo.record .complete).within toEndpointInfo
    <*> idField "refId" refId
    <*> idField "tableId" tableId
    <*> idsField "fieldIds" fieldIds

def TableGroup.codec : Codec TableGroup :=
  Record.codec "struct NormalizedTableGroup" <|
    (fun id info => TableGroup.mk info id)
    <$> idField "id" id
    <*> TableGroupInfo.record.within toTableGroupInfo
    <*> idsField "tableIds" tableIds
    <*> idField "schemaId" schemaId

def Tag.codec : Codec Tag :=
  Record.codec "struct NormalizedTag" <|
    (fun id info => Tag.mk info id)
    <$> idField "id" id
    <*> TagInfo.record.within toTagInfo
    <*> idsField "tableIds" tableIds
    <*> idField "schemaId" schemaId

def Model.codec : Codec Model :=
  Record.codec "struct NormalizedModel" <|
    Model.mk <$> .required "database" database (.bucket Database.codec)
      <*> .required "schemas" schemas (.bucket Schema.codec)
      <*> .required "refs" refs (.bucket Ref.codec)
      <*> .required "enums" enums (.bucket Enum.codec)
      <*> .required "tableGroups" tableGroups (.bucket TableGroup.codec)
      <*> .required "tags" tags (.bucket Tag.codec)
      <*> .required "tables" tables (.bucket Table.codec)
      <*> .required "endpoints" endpoints (.bucket Endpoint.codec)
      <*> .required "enumValues" enumValues (.bucket EnumValue.codec)
      <*> .required "indexes" indexes (.bucket Index.codec)
      <*> .required "indexColumns" indexColumns (.bucket IndexColumn.codec)
      <*> .required "fields" fields (.bucket Field.codec)

end Catalog.Flat
