import CallSearch.AgentSearch
import CallSearch.CommandLine.Arguments
import CallSearch.Json.Shown
import CallSearch.Predicate.Document
import CallSearch.Store.Tables

namespace CallSearch.CommandLine

inductive Printed where
  | text (s : String)
  | document (value : Json)
  | table (title : String) (columns : List String) (rows : List (List String))

structure Report where
  printed : List Printed
  ending : Except String Nat

namespace Report

def done (printed : List Printed) : Report := ⟨printed, .ok 0⟩

def failed (message : String) : Report := ⟨[], .error message⟩

def finish (report : Report) : List Printed × Nat :=
  match report.ending with
  | .ok code => (report.printed, code)
  | .error message => (report.printed ++ [.text ("[red]Error: " ++ message ++ "[/red]")], 1)

end Report

/-- Where commands are run: the tables with the address of their database, the time, and the search
of the agent that is asked about. -/
structure Setting where
  tables : Tables
  address : String
  clock : Clock
  search : AgentSearch

namespace Setting

def predicatesPrinted (s : Setting) (json : Bool) (predicates : List Predicate) : Printed :=
  if json then .document (.arr (predicates.map Predicate.toJson))
  else
    .table ("Predicates for agent " ++ s.search.agent) ["Column", "Operator", "Value"]
      (predicates.map fun p => [p.column, p.operator.name, p.value.toJson.shown])

def droppedPrinted : Rule × RuleFault → Printed
  | (rule, fault) =>
    .text ("[yellow]Dropped rule " ++ rule.column ++ ":" ++ rule.operation ++ ": "
      ++ fault.messageFor rule ++ "[/yellow]")

def compile (s : Setting) (query : SearchQuery) (signals : List Signal) (count json : Bool) :
    Fresh Report := do
  let request : SearchRequest := { search := some query, toggles := signals.map .signal }
  match (← s.search.compile s.tables.calls s.clock request).1 with
  | .error error => return .failed error.message
  | .ok compiled =>
    let printed :=
      s.predicatesPrinted json compiled.predicates :: compiled.dropped.map droppedPrinted
    if !count then return .done printed
    else
      match s.tables.calls.count compiled.predicates with
      | .ok n => return .done (printed ++ [.text ("Matching calls: " ++ toString n)])
      | .error error => return ⟨printed, .error (error.message?.getD "")⟩

def fieldRow (field : Field) : List String :=
  [field.path, field.kind.name, field.category.name, toString (field.count.getD 0),
    toString (field.distinct.getD 0)]

def fields (s : Setting) (sampleSize : Option Int) : Report :=
  let (catalog, _) := s.search.catalog s.tables.calls s.clock sampleSize false
  if catalog.isEmpty then
    .done [.text "[yellow]Field discovery unavailable; using fixed columns only[/yellow]"]
  else
    .done [.table ("Fields for agent " ++ s.search.agent)
      ["Path", "Type", "Category", "Count", "Unique"] (catalog.map fieldRow)]

def signalRow (thresholds : Thresholds) (signal : Signal) : List String :=
  [signal.name, (thresholds.get? signal).elim "n/a" (Double.fixed 2),
    toString (thresholds.sampleSize signal)]

def percentiles (s : Setting) : Report :=
  match (s.search.thresholds s.tables.calls s.clock false).1 with
  | .error error => .failed error.message
  | .ok thresholds =>
    .done [.table ("p95 thresholds for agent " ++ s.search.agent) ["Signal", "p95", "Samples"]
      (Signal.all.map (signalRow thresholds))]

def viewRow (record : ViewRecord) : List String :=
  [record.name, toString record.groupCount, record.updatedAt.iso]

def views (s : Setting) : Report :=
  match s.tables.views.list s.search.agent with
  | .error _ => .failed ""
  | .ok records =>
    if records.isEmpty then .done [.text "No saved views"]
    else
      .done [.table ("Saved views for agent " ++ s.search.agent) ["Name", "Groups", "Updated"]
        (records.map viewRow)]

def health (s : Setting) : Report :=
  match s.tables.sizes? with
  | none => ⟨[.text "[red]Database unhealthy: a table is lost[/red]"], .ok 1⟩
  | some (calls, views) =>
    let address := (Text.split '@' s.address).getLast?.getD ""
    .done [.text ("[green]Database healthy[/green] (" ++ address ++ ")"),
      .text ("Calls: " ++ toString calls ++ "  Saved views: " ++ toString views)]

def run (s : Setting) : Command → Fresh Report
  | .compile query scope exact signals count json =>
    s.compile ⟨query, .list scope, false, exact⟩ signals count json
  | .fields sampleSize => return s.fields sampleSize
  | .percentiles => return s.percentiles
  | .views => return s.views
  | .health => return s.health

end Setting

/-- Runs what the arguments of the command line ask for. Arguments that ask for nothing end with the
code two, and those that ask for help with zero. -/
def run (tables : Tables) (address : String) (clock : Clock) (configuration : Configuration)
    (arguments : List String) : Fresh (List Printed × Nat) := do
  match Arguments.parse arguments with
  | .wrong => return ([], 2)
  | .help => return ([], 0)
  | .run arguments =>
    let search := AgentSearch.start arguments.agent configuration
    return (← Setting.run ⟨tables, address, clock, search⟩ arguments.command).finish

end CallSearch.CommandLine
