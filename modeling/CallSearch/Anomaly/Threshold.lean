import CallSearch.Document.Scalar
import CallSearch.Json.Shown

namespace CallSearch

inductive Signal where
  | duration
  | cost
  | latency
deriving DecidableEq, Inhabited

namespace Signal

def all : List Signal := [.duration, .cost, .latency]

def name : Signal → String
  | .duration => "duration"
  | .cost => "cost"
  | .latency => "latency"

def ofName? (name : String) : Option Signal := all.find? (·.name == name)

end Signal

inductive Toggle where
  | signal (signal : Signal)
  | unknown (shown : String)
deriving DecidableEq

namespace Toggle

def ofJson (value : Json) : Toggle :=
  match value with
  | .str name => ((Signal.ofName? name).map Toggle.signal).getD (.unknown value.shown)
  | _ => .unknown value.shown

end Toggle

structure Thresholds where
  duration : Option Double := none
  cost : Option Double := none
  latency : Option Double := none
  samples : List (Signal × Nat) := []
deriving DecidableEq, Inhabited

structure SampleTooSmall where
  signal : Signal
  size : Nat
  minimum : Int

def SampleTooSmall.message (e : SampleTooSmall) : String :=
  "Not enough samples for '" ++ e.signal.name ++ "' percentile (" ++ toString e.size ++ " < "
    ++ toString e.minimum ++ ")"

namespace Thresholds

def get? (t : Thresholds) : Signal → Option Double
  | .duration => t.duration
  | .cost => t.cost
  | .latency => t.latency

def sampleSize (t : Thresholds) (signal : Signal) : Nat := (t.samples.lookup signal).getD 0

def require (t : Thresholds) (signal : Signal) (minimum : Int) : Except SampleTooSmall Double :=
  match t.get? signal with
  | some x => .ok x
  | none => .error ⟨signal, t.sampleSize signal, minimum⟩

def isEmpty (t : Thresholds) : Bool := Signal.all.all fun signal => (t.get? signal).isNone

def read (document : Json) : Reading Thresholds :=
  match document with
  | .obj _ =>
    (fun duration cost latency => { duration, cost, latency })
      <$> document.optional ["duration_p95"] none (Json.readNullable Json.readReal)
      <*> document.optional ["cost_p95"] none (Json.readNullable Json.readReal)
      <*> document.optional ["latency_p95"] none (Json.readNullable Json.readReal)
  | _ => .problem .notObject

end Thresholds

end CallSearch
