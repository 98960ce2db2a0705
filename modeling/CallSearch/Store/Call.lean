import CallSearch.Json.Basic
import CallSearch.Store.Cell
import CallSearch.Store.Column

namespace CallSearch

/-- A call in the store. It has an id, an owner and a time at which it was created; any other
column may be empty. -/
structure Call where
  id : Int
  agent : String
  createdAt : Timestamp
  texts : TextColumn → Option String
  times : TimeColumn → Option Timestamp
  numbers : NumberColumn → Option Double
  payloads : PayloadColumn → Option Json

namespace Call

/-- The value of a call in a column, as the store compares it. A document is compared by its text,
and a number that is a document of its own as a number. -/
def cell (call : Call) : CallColumn → Cell
  | .id => .number (.int call.id)
  | .agent => .text call.agent
  | .createdAt => .time call.createdAt
  | .text column => (call.texts column).elim .null .text
  | .time column => (call.times column).elim .null .time
  | .number column => (call.numbers column).elim .null Cell.ofDouble
  | .payload column =>
    match call.payloads column with
    | none => .null
    | some (.int n) => .number (Number.ofInt n)
    | some (.real x) =>
      if x.isFinite then .number (.real x)
      else .text (String.ofList (Json.chars Json.spacedStyle (.real x)))
    | some document => .text (String.ofList (Json.chars Json.spacedStyle document))

def value (call : Call) : CallColumn → Json
  | .id => .int call.id
  | .agent => .str call.agent
  | .createdAt => .str call.createdAt.iso
  | .text column => .ofText? (call.texts column)
  | .time column => .ofText? ((call.times column).map Timestamp.iso)
  | .number column => (call.numbers column).elim .null .real
  | .payload column => (call.payloads column).getD .null

def toJson (call : Call) : Json :=
  .obj (CallColumn.all.map fun column => (column.name, call.value column))

def signalColumns : List CallColumn :=
  [.number .duration, .number .latency, .number .llmCost, .number .ttsCost, .number .sttCost,
   .payload .metadata]

def signalRow (call : Call) : Json :=
  .obj (signalColumns.map fun column => (column.name, call.value column))

end Call

abbrev CallTable := Option (List Call)

end CallSearch
