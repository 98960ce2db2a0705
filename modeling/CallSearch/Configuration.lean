import CallSearch.Document.Scalar
import CallSearch.Text.Lowercase

namespace CallSearch

abbrev Positive := { n : Nat // 0 < n }

structure Configuration where
  databaseUrl : String := "sqlite:///./calllog_query.db"
  debug : Bool := false
  pageSize : Positive := ⟨50, by decide⟩
  sampleSize : Positive := ⟨500, by decide⟩
  minimumSamples : Positive := ⟨20, by decide⟩
  lookbackDays : Option Positive := none
  cacheSeconds : Double := .ofInt 300
deriving Inhabited

namespace Configuration

def standard : Configuration := {}

def largestPage : Nat := 1000

def variablePrefix : List Char := "calllog_query_".toList

def readPositive (value : Json) : Reading Positive :=
  (Json.readInt value).andThen fun n =>
    if h : 0 < n.toNat then .value ⟨n.toNat, h⟩ else .problem .tooSmall

def readPageSize (value : Json) : Reading Positive :=
  (readPositive value).ensure (·.val ≤ largestPage) .tooLarge

def readSeconds (value : Json) : Reading Double :=
  (Json.readReal value).ensure (fun x => !x.isNan && !(Number.real x).lt (.int 0)) .tooSmall

def read (document : Json) : Reading Configuration :=
  Configuration.mk
    <$> document.optional ["database_url"] standard.databaseUrl Json.readText
    <*> document.optional ["debug"] standard.debug Json.readBool
    <*> document.optional ["page_size"] standard.pageSize readPageSize
    <*> document.optional ["discovery_sample_size"] standard.sampleSize readPositive
    <*> document.optional ["percentile_min_samples"] standard.minimumSamples readPositive
    <*> document.optional ["percentile_lookback_days"] standard.lookbackDays
      (Json.readNullable readPositive)
    <*> document.optional ["cache_ttl_seconds"] standard.cacheSeconds readSeconds

/-- The members that the environment gives. The last variable of a name counts. -/
def membersOf (environment : List (String × String)) : List (String × Json) :=
  environment.reverse.filterMap fun (name, value) =>
    let word := (Text.lower name).toList
    if variablePrefix.isPrefixOf word then
      some (String.ofList (word.drop variablePrefix.length), .str value)
    else none

def readFrom (arguments : Json) (environment : List (String × String)) : Reading Configuration :=
  read (.obj (arguments.members ++ membersOf environment))

def toJson (c : Configuration) : Json :=
  .obj [("database_url", .str c.databaseUrl), ("debug", .bool c.debug),
    ("page_size", .int c.pageSize.val), ("discovery_sample_size", .int c.sampleSize.val),
    ("percentile_min_samples", .int c.minimumSamples.val),
    ("percentile_lookback_days", c.lookbackDays.elim .null fun n => .int n.val),
    ("cache_ttl_seconds", .real c.cacheSeconds)]

end Configuration

end CallSearch
