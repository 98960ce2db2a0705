namespace CallSearch

inductive ColumnType where
  | text
  | number
  | date
  | json
deriving DecidableEq, Inhabited

inductive Operation where
  | equals
  | contains
  | startsWith
  | endsWith
  | isEmpty
  | greaterThan
  | lessThan
  | between
  | jsonEquals
  | jsonContains
  | jsonExists
  | jsonGreaterThan
  | jsonLessThan
deriving DecidableEq

namespace Operation

def all : List Operation :=
  [.equals, .contains, .startsWith, .endsWith, .isEmpty, .greaterThan, .lessThan, .between,
   .jsonEquals, .jsonContains, .jsonExists, .jsonGreaterThan, .jsonLessThan]

def name : Operation → String
  | .equals => "equals"
  | .contains => "contains"
  | .startsWith => "starts_with"
  | .endsWith => "ends_with"
  | .isEmpty => "is_empty"
  | .greaterThan => "greater_than"
  | .lessThan => "less_than"
  | .between => "between"
  | .jsonEquals => "json_equals"
  | .jsonContains => "json_contains"
  | .jsonExists => "json_exists"
  | .jsonGreaterThan => "json_greater_than"
  | .jsonLessThan => "json_less_than"

def ofName? (name : String) : Option Operation := all.find? (·.name == name)

def needsValue : Operation → Bool
  | .isEmpty => false
  | .jsonExists => false
  | _ => true

def reachesMembers : Operation → Bool
  | .equals => true
  | .contains => true
  | .startsWith => true
  | .greaterThan => true
  | .lessThan => true
  | _ => false

end Operation

namespace ColumnType

def name : ColumnType → String
  | .text => "text"
  | .number => "number"
  | .date => "date"
  | .json => "jsonb"

def operations : ColumnType → List Operation
  | .text => [.equals, .contains, .startsWith, .endsWith, .isEmpty]
  | .number => [.equals, .greaterThan, .lessThan, .between]
  | .date => [.equals, .greaterThan, .lessThan, .between]
  | .json => [.jsonEquals, .jsonContains, .jsonExists, .jsonGreaterThan, .jsonLessThan]

end ColumnType

inductive Column where
  | customerNumber
  | callId
  | endedReason
  | duration
  | billingDuration
  | latency
  | totalCost
  | startedAt
  | metadata
  | transcription
  | metrics
deriving DecidableEq

namespace Column

def all : List Column :=
  [.customerNumber, .callId, .endedReason, .duration, .billingDuration, .latency, .totalCost,
   .startedAt, .metadata, .transcription, .metrics]

def name : Column → String
  | .customerNumber => "customer_number"
  | .callId => "call_id"
  | .endedReason => "call_ended_reason"
  | .duration => "duration_seconds"
  | .billingDuration => "billing_duration_seconds"
  | .latency => "avg_latency"
  | .totalCost => "total_cost"
  | .startedAt => "call_started_at"
  | .metadata => "metadata"
  | .transcription => "transcription_metrics"
  | .metrics => "metrics"

def label : Column → String
  | .customerNumber => "Customer Number"
  | .callId => "Call ID"
  | .endedReason => "Status"
  | .duration => "Duration (seconds)"
  | .billingDuration => "Billing Duration"
  | .latency => "Avg Latency (ms)"
  | .totalCost => "Total Cost"
  | .startedAt => "Date"
  | .metadata => "Metadata"
  | .transcription => "Transcription"
  | .metrics => "Metrics"

def type : Column → ColumnType
  | .customerNumber => .text
  | .callId => .text
  | .endedReason => .text
  | .duration => .number
  | .billingDuration => .number
  | .latency => .number
  | .totalCost => .number
  | .startedAt => .date
  | .metadata => .json
  | .transcription => .json
  | .metrics => .json

def ofName? (name : String) : Option Column := all.find? (·.name == name)

def textNames : List String := (all.filter (·.type == .text)).map name

end Column

end CallSearch
