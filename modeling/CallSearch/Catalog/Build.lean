import CallSearch.Catalog.Field
import CallSearch.Json.Printer

namespace CallSearch

structure PayloadSource where
  column : String
  category : Category

def payloadSources : List PayloadSource :=
  [⟨"metadata", .metadata⟩, ⟨"transcription_metrics", .transcription⟩, ⟨"metrics", .metrics⟩]

namespace Catalog

def basicFields : List Field :=
  [⟨"Call ID", "call_id", .string, .basic, none, none, none⟩,
   ⟨"Customer Number", "customer_number", .string, .basic, none, none, none⟩,
   ⟨"Agent ID", "agent_id", .string, .basic, none, none, none⟩,
   ⟨"Status", "call_ended_reason", .string, .basic, none, none, none⟩,
   ⟨"Duration (seconds)", "duration_seconds", .number, .basic, none, none, none⟩,
   ⟨"Billing Duration", "billing_duration_seconds", .number, .basic, none, none, none⟩,
   ⟨"Total Cost", "total_cost", .number, .basic, none, none, none⟩,
   ⟨"Start Time", "call_started_at", .date, .basic, none, none, none⟩,
   ⟨"End Time", "call_ended_at", .date, .basic, none, none, none⟩,
   ⟨"Created At", "created_at", .date, .basic, none, none, none⟩,
   ⟨"Avg Latency (ms)", "avg_latency", .number, .basic, none, none, none⟩,
   ⟨"LLM Cost", "total_llm_cost", .number, .basic, none, none, none⟩,
   ⟨"TTS Cost", "total_tts_cost", .number, .basic, none, none, none⟩,
   ⟨"STT Cost", "total_stt_cost", .number, .basic, none, none, none⟩,
   ⟨"Recording URL", "recording_url", .string, .basic, none, none, none⟩,
   ⟨"Environment", "environment", .string, .basic, none, none, none⟩,
   ⟨"Transcript Type", "transcript_type", .string, .basic, none, none, none⟩]

def sampleLimit : Nat := 5

def firstOfEach {α : Type} : List (String × α) → List (String × α)
  | [] => []
  | (key, value) :: rest => (key, value) :: (firstOfEach rest).filter (·.1 != key)

def distinctValues (values : List Json) : List Json :=
  (firstOfEach (values.map fun value => (value.canonicalKey, value))).map (·.2)

def observed (field : Field) (values : List Json) : Field :=
  let distinct := distinctValues values
  { field with
    samples := some (distinct.take sampleLimit)
    count := some values.length
    distinct := some distinct.length }

def basicValues (records : List Json) (path : String) : List Json :=
  (records.filterMap (·.member? path)).filter (!·.isNull)

/-- A basic field with what is known from a sample; there are no values to show if none was seen. -/
def basicField (records : List Json) (field : Field) : Field :=
  let values := basicValues records field.path
  if values.isEmpty then { observed field [] with samples := none } else observed field values

def payloads (records : List Json) (column : String) : List (List (String × Json)) :=
  records.filterMap fun record =>
    match record.member? column with
    | some (.obj members) => some members
    | _ => none

def memberNames (payloads : List (List (String × Json))) : List String :=
  (firstOfEach (payloads.flatten.map fun (name, _) => (name, ()))).map (·.1)

/-- The field of a member, with what is known from the objects that have it. Its kind is that of
the first value that is not null. -/
def memberField (source : PayloadSource) (payloads : List (List (String × Json)))
    (name : String) : Field :=
  let values := payloads.filterMap (·.lookup name)
  let kind := ((values.find? (!·.isNull)).map Json.kind).getD .string
  observed ⟨name, source.column ++ "." ++ name, kind, source.category, none, none, none⟩ values

def memberFields (records : List Json) (source : PayloadSource) : List Field :=
  let payloads := payloads records source.column
  (memberNames payloads).map (memberField source payloads)

def build (records : List Json) : Catalog :=
  basicFields.map (basicField records) ++ payloadSources.flatMap (memberFields records)

def ofCategory (catalog : Catalog) (category : Category) : Catalog :=
  catalog.filter (·.category == category)

def memberNamesOf (catalog : Catalog) (column : String) : List String :=
  match payloadSources.find? (·.column == column) with
  | some source =>
    ((ofCategory catalog source.category).filter fun field =>
      (column ++ ".").toList.isPrefixOf field.path.toList).map (·.name)
      |>.mergeSort fun a b => decide (a ≤ b)
  | none => []

end Catalog

end CallSearch
