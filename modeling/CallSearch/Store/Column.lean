namespace CallSearch

inductive TextColumn where
  | callId
  | customerNumber
  | endedReason
  | environment
  | transcriptType
  | recordingUrl
deriving DecidableEq, Inhabited

inductive TimeColumn where
  | startedAt
  | endedAt
deriving DecidableEq, Inhabited

inductive NumberColumn where
  | duration
  | billingDuration
  | latency
  | totalCost
  | llmCost
  | ttsCost
  | sttCost
deriving DecidableEq, Inhabited

inductive PayloadColumn where
  | metadata
  | transcription
  | metrics
deriving DecidableEq, Inhabited

inductive CallColumn where
  | id
  | agent
  | createdAt
  | text (column : TextColumn)
  | time (column : TimeColumn)
  | number (column : NumberColumn)
  | payload (column : PayloadColumn)
deriving DecidableEq, Inhabited

namespace TextColumn

def all : List TextColumn :=
  [.callId, .customerNumber, .endedReason, .environment, .transcriptType, .recordingUrl]

def name : TextColumn → String
  | .callId => "call_id"
  | .customerNumber => "customer_number"
  | .endedReason => "call_ended_reason"
  | .environment => "environment"
  | .transcriptType => "transcript_type"
  | .recordingUrl => "recording_url"

end TextColumn

namespace TimeColumn

def all : List TimeColumn := [.startedAt, .endedAt]

def name : TimeColumn → String
  | .startedAt => "call_started_at"
  | .endedAt => "call_ended_at"

end TimeColumn

namespace NumberColumn

def all : List NumberColumn :=
  [.duration, .billingDuration, .latency, .totalCost, .llmCost, .ttsCost, .sttCost]

def name : NumberColumn → String
  | .duration => "duration_seconds"
  | .billingDuration => "billing_duration_seconds"
  | .latency => "avg_latency"
  | .totalCost => "total_cost"
  | .llmCost => "total_llm_cost"
  | .ttsCost => "total_tts_cost"
  | .sttCost => "total_stt_cost"

end NumberColumn

namespace PayloadColumn

def all : List PayloadColumn := [.metadata, .transcription, .metrics]

def name : PayloadColumn → String
  | .metadata => "metadata"
  | .transcription => "transcription_metrics"
  | .metrics => "metrics"

end PayloadColumn

namespace CallColumn

def name : CallColumn → String
  | .id => "id"
  | .agent => "agent_id"
  | .createdAt => "created_at"
  | .text column => column.name
  | .time column => column.name
  | .number column => column.name
  | .payload column => column.name

def all : List CallColumn :=
  [.id, .agent] ++ TextColumn.all.map text ++ TimeColumn.all.map time ++ [.createdAt]
    ++ NumberColumn.all.map number ++ PayloadColumn.all.map payload

def ofName? (name : String) : Option CallColumn := all.find? (·.name == name)

end CallColumn

end CallSearch
