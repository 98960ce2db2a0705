import CallSearch.Anomaly.Percentile
import CallSearch.Anomaly.Threshold
import CallSearch.Json.Kind
import CallSearch.TimedCache

namespace CallSearch

namespace Signal

def partsCost (row : Json) : Except NumberError Double :=
  ["total_llm_cost", "total_tts_cost", "total_stt_cost"].foldlM (fun total name => do
    let part ← ((row.member? name).getD .null).toDouble?
    return total.add (part.getD .zero)) .zero

/-- What a call costs the customer: what was charged, or else the sum of the parts if it is
positive. -/
def callCost (row : Json) : Except NumberError (Option Double) := do
  let charge ← (((row.member? "metadata").getD .null).lookup "customer_charge").toDouble?
  match charge with
  | some x => return some x
  | none =>
    let total ← partsCost row
    return if (Number.int 0).lt (.real total) then some total else none

def columnValue (column : String) (row : Json) : Except NumberError (Option Double) :=
  match (row.member? column).bind Json.number? with
  | some n => n.toDouble.map some
  | none => .ok none

def value : Signal → Json → Except NumberError (Option Double)
  | .duration => columnValue "duration_seconds"
  | .cost => callCost
  | .latency => columnValue "avg_latency"

def values (signal : Signal) (rows : List Json) : Except NumberError (List Double) :=
  (rows.mapM signal.value).map (·.filterMap id)

end Signal

namespace Thresholds

/-- The threshold of a signal with the given values; too few values give none. -/
def ofValues (minimum : Int) (percentile : Number) (values : List Double) :
    Except PercentileError (Option Double) :=
  if (values.length : Int) < minimum then .ok none
  else
    (nearestRank (values.map .real) percentile).map fun chosen =>
      chosen.bind fun
        | .real x => some x
        | .int _ => none

def compute (minimum : Int) (percentile : Number) (rows : List Json) :
    Except PercentileError Thresholds := do
  let values (signal : Signal) := (signal.values rows).mapError .number
  let duration ← values .duration
  let cost ← values .cost
  let latency ← values .latency
  return {
    duration := ← ofValues minimum percentile duration
    cost := ← ofValues minimum percentile cost
    latency := ← ofValues minimum percentile latency
    samples := [(.duration, duration.length), (.cost, cost.length), (.latency, latency.length)] }

end Thresholds

abbrev SignalReader := String → Option Int → Option (List Json)

structure AnomalyWatch where
  minimum : Int := 20
  percentile : Number := .int 95
  lifetime : Number := .int 300
  lookbackDays : Option Int := none
  cache : TimedCache String Thresholds := {}

namespace AnomalyWatch

/-- What reading thresholds gives: the thresholds, the calls that were asked for if any were, and
the thresholds that are kept from then on. -/
structure Outcome where
  thresholds : Except PercentileError Thresholds
  asked : Option (String × Option Int)
  after : AnomalyWatch

def compute (w : AnomalyWatch) (reader : SignalReader) (now : Number) (agent : String) : Outcome :=
  let asked := some (agent, w.lookbackDays)
  match reader agent w.lookbackDays with
  | none => ⟨.ok {}, asked, w⟩
  | some rows =>
    match Thresholds.compute w.minimum w.percentile rows with
    | .error error => ⟨.error error, asked, w⟩
    | .ok thresholds =>
      ⟨.ok thresholds, asked, { w with cache := w.cache.put agent thresholds now }⟩

def read (w : AnomalyWatch) (reader : SignalReader) (now : Number) (agent : String)
    (force : Bool) : Outcome :=
  match if force then none else w.cache.fresh? w.lifetime now agent with
  | some thresholds => ⟨.ok thresholds, none, w⟩
  | none => w.compute reader now agent

def forget (w : AnomalyWatch) (agent : Option String) : AnomalyWatch :=
  { w with cache := w.cache.remove fun key => agent.all (· == key) }

end AnomalyWatch

end CallSearch
