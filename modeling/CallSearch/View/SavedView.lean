import CallSearch.Document.Scalar
import CallSearch.Document.Time
import CallSearch.Filter.Document

namespace CallSearch

def VisibleColumns.sections : List String := ["basic", "metadata", "transcription", "metrics"]

structure VisibleColumns where
  basic : List String := []
  metadata : List String := []
  transcription : List String := []
  metrics : List String := []
  extra : List (String × Json) := []
  unknown : ∀ member ∈ extra, member.1 ∉ VisibleColumns.sections := by simp

namespace VisibleColumns

instance : Inhabited VisibleColumns := ⟨{}⟩

/-- The names under which a section of an object is read: the section of transcriptions has two, and
the second counts if the first is absent. -/
def readNames (document : Json) : List String :=
  sections ++ if (document.member? "transcription").isSome then [] else ["transcription_metrics"]

def extraOf (document : Json) : List (String × Json) :=
  document.members.filter fun member => !(readNames document).contains member.1

theorem unknown_of_mem_extraOf {document : Json} {member : String × Json}
    (h : member ∈ extraOf document) : member.1 ∉ sections := by
  have unread := (List.mem_filter.mp h).2
  intro known
  have read : member.1 ∈ readNames document := List.mem_append_left _ known
  simp [read] at unread

def read (document : Json) : Reading VisibleColumns :=
  let texts (names : List String) : Reading (List String) :=
    document.optional names [] (Json.readList Json.readText)
  match document with
  | .obj _ =>
    (fun basic metadata transcription metrics =>
        { basic, metadata, transcription, metrics, extra := extraOf document,
          unknown := fun _ => unknown_of_mem_extraOf })
      <$> texts ["basic"]
      <*> texts ["metadata"]
      <*> texts ["transcription", "transcription_metrics"]
      <*> texts ["metrics"]
  | _ => .problem .notObject

def toJson (columns : VisibleColumns) : Json :=
  let texts (items : List String) : Json := .arr (items.map .str)
  .obj ([("basic", texts columns.basic), ("metadata", texts columns.metadata),
    ("transcription", texts columns.transcription), ("metrics", texts columns.metrics)]
      ++ columns.extra)

end VisibleColumns

/-- A view as a user saves it. It has an id and times once it was stored. -/
structure SavedView where
  id : Option String
  agent : String
  name : String
  filters : Forest
  columns : VisibleColumns
  createdAt : Option Moment
  updatedAt : Option Moment

namespace SavedView

def readName (value : Json) : Reading String :=
  ((Json.readText value).ensure (1 ≤ ·.length) .tooShort).ensure (·.length ≤ 255) .tooLong

def read (document : Json) : Fresh (Reading SavedView) := do
  match document with
  | .obj _ =>
    let filters ← match document.member? "filters" with
      | some filters => (·.under "filters") <$> Group.readAll filters
      | none => pure (.value [])
    let moment (name : String) := document.optional [name] none (Json.readNullable Json.readMoment)
    return SavedView.mk
      <$> document.optional ["id"] none (Json.readNullable Json.readText)
      <*> document.required ["agent_id", "agentId"] Json.readText
      <*> document.required ["name"] readName
      <*> filters
      <*> document.optional ["visible_columns", "visibleColumns"] {} VisibleColumns.read
      <*> moment "created_at"
      <*> moment "updated_at"
  | _ => return .problem .notRecord

def toJson (view : SavedView) : Json :=
  .obj [("id", .ofText? view.id), ("agent_id", .str view.agent), ("name", .str view.name),
    ("filters", .arr (view.filters.map Group.toJson)),
    ("visible_columns", view.columns.toJson),
    ("created_at", .ofText? (view.createdAt.map Moment.iso)),
    ("updated_at", .ofText? (view.updatedAt.map Moment.iso))]

end SavedView

end CallSearch
