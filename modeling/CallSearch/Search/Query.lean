import CallSearch.Document.Scalar
import CallSearch.Search.Parse

namespace CallSearch

inductive SearchFields where
  | all
  | list (fields : List String)
deriving DecidableEq

structure SearchQuery where
  text : String
  fields : SearchFields
  caseSensitive : Bool
  exactMatch : Bool

namespace SearchQuery

def scopeIsAll (query : SearchQuery) : Bool :=
  match query.fields with
  | .all => true
  | .list fields => fields.isEmpty || fields.contains "all"

def toGroup (query : SearchQuery) : Fresh Group :=
  let fields :=
    match query.fields with
    | .list fields => if query.scopeIsAll then ["all"] else fields
    | .all => ["all"]
  Search.parse ⟨fields, Column.textNames⟩ query.exactMatch query.text

def readFields (document : Json) : Reading SearchFields :=
  match document with
  | .str "all" => .value .all
  | _ =>
    match Json.readList Json.readText document with
    | .value fields => .value (.list fields)
    | .refused findings =>
      .refused (⟨["literal['all']"], .notChoice⟩ ::
        findings.map fun f => { f with path := "list[str]" :: f.path })

def read (document : Json) : Reading SearchQuery :=
  match document with
  | .obj _ =>
    SearchQuery.mk
      <$> document.optional ["text"] "" Json.readText
      <*> document.optional ["fields"] .all readFields
      <*> document.optional ["caseSensitive", "case_sensitive"] false Json.readBool
      <*> document.optional ["exactMatch", "exact_match"] false Json.readBool
  | _ => .problem .notObject

def toJson (query : SearchQuery) : Json :=
  .obj [("text", .str query.text),
    ("fields", match query.fields with
      | .all => .str "all"
      | .list fields => .arr (fields.map .str)),
    ("caseSensitive", .bool query.caseSensitive),
    ("exactMatch", .bool query.exactMatch)]

structure Preset where
  id : String
  label : String
  query : SearchQuery

def presets : List Preset :=
  [⟨"long-calls", "Long calls (>5 min)",
     ⟨"duration_seconds:>300", .list ["duration_seconds"], false, false⟩⟩,
   ⟨"high-latency", "High latency (>2s)",
     ⟨"avg_latency:>2000", .list ["avg_latency"], false, false⟩⟩,
   ⟨"completed-calls", "Completed calls",
     ⟨"call_ended_reason:completed", .list ["call_ended_reason"], false, false⟩⟩]

def preset? (id : String) : Option Preset := presets.find? (·.id == id)

end SearchQuery

end CallSearch
