import CallSearch.Document.Scalar
import CallSearch.Json.Kind

namespace CallSearch

inductive Category where
  | basic
  | metadata
  | transcription
  | metrics
deriving DecidableEq, Inhabited

namespace Category

def all : List Category := [.basic, .metadata, .transcription, .metrics]

def name : Category → String
  | .basic => "basic"
  | .metadata => "metadata"
  | .transcription => "transcription"
  | .metrics => "metrics"

def ofName? (name : String) : Option Category := all.find? (·.name == name)

end Category

structure Field where
  name : String
  path : String
  kind : Kind
  category : Category
  samples : Option (List Json) := none
  count : Option Int := none
  distinct : Option Int := none
deriving Inhabited

abbrev Catalog := List Field

namespace Field

def column (field : Field) : String := (Text.cut '.' field.path).1

def subkey (field : Field) : Option String := (Text.cut '.' field.path).2

def read (document : Json) : Reading Field :=
  match document with
  | .obj _ =>
    Field.mk
      <$> document.required ["name"] Json.readText
      <*> document.required ["path"] Json.readText
      <*> document.required ["type"] (Json.readChoice Kind.ofName?)
      <*> document.required ["category"] (Json.readChoice Category.ofName?)
      <*> document.optional ["sampleValues", "sample_values"] none
        (Json.readNullable (Json.readList .value))
      <*> document.optional ["count"] none (Json.readNullable Json.readInt)
      <*> document.optional ["uniqueCount", "unique_count"] none (Json.readNullable Json.readInt)
  | _ => .problem .notObject

def presentMember {α : Type} (name : String) (write : α → Json) : Option α → List (String × Json)
  | some value => [(name, write value)]
  | none => []

def toJson (field : Field) : Json :=
  .obj ([("name", .str field.name), ("path", .str field.path), ("type", .str field.kind.name),
      ("category", .str field.category.name)]
    ++ presentMember "sampleValues" Json.arr field.samples
    ++ presentMember "count" Json.int field.count
    ++ presentMember "uniqueCount" Json.int field.distinct)

end Field

end CallSearch
