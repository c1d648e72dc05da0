import Catalog.Config
import Catalog.Json.Record

/-!
The JSON form of a configuration. Every setting may be left out.
-/
namespace Catalog

open Json (Codec Record)

def EnumBinding.codec : Codec EnumBinding :=
  .choice [("on_enum_insert", .onInsert), ("after_construction", .afterConstruction)] fun
    | .onInsert => "on_enum_insert"
    | .afterConstruction => "after_construction"

def Config.codec : Codec Config :=
  Record.codec "struct ModelConfig" <|
    Config.mk
    <$> .defaulted "default_schema_name" defaultSchemaName .string ({} : Config).defaultSchemaName
    <*> .defaulted "id_base" idBase .uint32 ({} : Config).idBase
    <*> .defaulted "enum_binding" enumBinding EnumBinding.codec ({} : Config).enumBinding

end Catalog
