import CallSearch.Anomaly.Signals
import CallSearch.Catalog.Cache
import CallSearch.Compile.Query
import CallSearch.Configuration
import CallSearch.Paging.Loading
import CallSearch.Search.Query

namespace CallSearch

inductive SearchError where
  | stop (stop : Compile.Stop)
  | percentile (error : PercentileError)
deriving DecidableEq

def SearchError.message : SearchError → String
  | .stop reason => reason.message
  | .percentile error => error.message

structure SearchRequest where
  groups : Forest := []
  search : Option SearchQuery := none
  toggles : List Toggle := []

structure AgentSearch where
  agent : String
  pageSize : Positive
  catalogs : CatalogCache
  watch : AnomalyWatch

/-- The times that a search is told: the date and time of day, and a number of seconds that only
grows. -/
structure Clock where
  now : Timestamp
  seconds : Number

namespace AgentSearch

def start (agent : String) (configuration : Configuration) : AgentSearch where
  agent := agent
  pageSize := configuration.pageSize
  catalogs :=
    { sampleSize := configuration.sampleSize.val, lifetime := .real configuration.cacheSeconds }
  watch :=
    { minimum := configuration.minimumSamples.val
      lifetime := .real configuration.cacheSeconds
      lookbackDays := configuration.lookbackDays.map fun days => days.val }

def samplerOf (table : CallTable) : Sampler := fun agent size =>
  (table.sample agent (some size)).toOption.map fun calls => calls.map Call.toJson

def readerOf (table : CallTable) (now : Timestamp) : SignalReader := fun agent days =>
  (table.signalCalls now agent days).toOption.map fun calls => calls.map Call.signalRow

def catalog (s : AgentSearch) (table : CallTable) (clock : Clock) (size : Option Int)
    (force : Bool) : Catalog × AgentSearch :=
  let outcome := s.catalogs.read (samplerOf table) clock.seconds s.agent size force
  (outcome.catalog, { s with catalogs := outcome.after })

def thresholds (s : AgentSearch) (table : CallTable) (clock : Clock) (force : Bool) :
    Except PercentileError Thresholds × AgentSearch :=
  let outcome := s.watch.read (readerOf table clock.now) clock.seconds s.agent force
  (outcome.thresholds, { s with watch := outcome.after })

def groupsOf (request : SearchRequest) : Fresh Forest := do
  match request.search with
  | some query =>
    if Text.isBlankText query.text then return request.groups
    else return request.groups ++ [← query.toGroup]
  | none => return request.groups

def thresholdsFor (s : AgentSearch) (table : CallTable) (clock : Clock) (toggles : List Toggle) :
    Except PercentileError (Option Thresholds) × AgentSearch :=
  if toggles.isEmpty then (.ok none, s)
  else
    let (thresholds, s) := s.thresholds table clock false
    (thresholds.map some, s)

def compile (s : AgentSearch) (table : CallTable) (clock : Clock) (request : SearchRequest) :
    Fresh (Except SearchError Compilation × AgentSearch) := do
  let groups ← groupsOf request
  match s.thresholdsFor table clock request.toggles with
  | (.error error, s) => return (.error (.percentile error), s)
  | (.ok thresholds, s) =>
    let (catalog, s) := s.catalog table clock none false
    let compiled := Compile.query {
      types := Compile.columnTypes catalog
      now := clock.now
      owner := some (Predicate.owner s.agent)
      groups := groups
      toggles := request.toggles
      thresholds := thresholds }
    return (compiled.mapError .stop, s)

def pager (s : AgentSearch) (predicates : Option (List Predicate)) (order : SortOrder) :
    Pager Call where
  pageSize := s.pageSize.val
  pageSize_pos := s.pageSize.property
  predicates := predicates.getD [Predicate.owner s.agent]
  order := order

end AgentSearch

end CallSearch
