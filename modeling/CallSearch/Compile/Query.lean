import CallSearch.Anomaly.Threshold
import CallSearch.Compile.Rule
import CallSearch.Filter.Group

namespace CallSearch

structure Compilation where
  predicates : List Predicate
  dropped : List (Rule × RuleFault)
deriving Inhabited

structure QuerySource where
  types : Compile.ColumnTypes
  now : Timestamp
  owner : Option Predicate
  groups : Forest
  toggles : List Toggle
  thresholds : Option Thresholds

namespace Compile

def signalTarget : Signal → String
  | .duration => "duration_seconds"
  | .cost => "metadata.customer_charge (numeric)"
  | .latency => "avg_latency"

def rules (types : ColumnTypes) (now : Timestamp) : List Rule → Except Stop Compilation
  | [] => .ok ⟨[], []⟩
  | rule :: rest =>
    match condition types now rule.toCondition with
    | .error (.stop stop) => .error stop
    | .error (.fault fault) =>
      (rules types now rest).map fun c => { c with dropped := (rule, fault) :: c.dropped }
    | .ok predicates =>
      (rules types now rest).map fun c => { c with predicates := predicates ++ c.predicates }

def signals (toggles : List Toggle) : Except Stop (List Signal) :=
  toggles.mapM fun
    | .signal signal => .ok signal
    | .unknown shown => .error (.unknownToggle shown)

def thresholdPredicate? (thresholds : Thresholds) (signal : Signal) : Option Predicate :=
  (thresholds.get? signal).map fun x => ⟨signalTarget signal, .atLeast, .number (.real x)⟩

/-- The predicates for the signals that are asked for, in the fixed order of signals. Without
thresholds nothing is asked. -/
def anomalies (toggles : List Toggle) (thresholds : Option Thresholds) :
    Except Stop (List Predicate) :=
  match thresholds with
  | none => .ok []
  | some thresholds =>
    (signals toggles).map fun active =>
      (Signal.all.filter (active.contains ·)).filterMap (thresholdPredicate? thresholds)

/-- The predicates of a query: the owner, the rules and the thresholds, in this order. -/
def query (source : QuerySource) : Except Stop Compilation := do
  let compiled ← rules source.types source.now (Forest.rules source.groups)
  let anomalies ← anomalies source.toggles source.thresholds
  return { compiled with predicates := source.owner.toList ++ compiled.predicates ++ anomalies }

end Compile

end CallSearch
