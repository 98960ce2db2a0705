import CallSearch.Number

namespace CallSearch

inductive PercentileError where
  | number (error : NumberError)
  | rankOutOfRange
  | rankTooLarge
deriving DecidableEq

def PercentileError.message : PercentileError → String
  | .number error => error.message
  | .rankOutOfRange => "list index out of range"
  | .rankTooLarge => "cannot fit 'int' into an index-sized integer"

def sortedNumbers (values : List Number) : List Number :=
  (values.filter (!·.isNan)).mergeSort Number.le

/-- The rank of a percentile among a number of values, from one on. -/
def percentileRank (percentile : Number) (size : Nat) : Except NumberError Int := do
  let share := (← percentile.toDouble).divNat 100
  match share.mul (.ofInt size) with
  | .nan => throw .notANumber
  | .infinite _ => throw .infinite
  | x => return x.ceil?.getD 0

def Number.isTooLarge (n : Number) : Bool :=
  match n.toDouble with
  | .ok _ => false
  | .error _ => true

/-- The value at a rank, from one on; ranks below one mean the first value. -/
def atRank (sorted : List Number) (rank : Int) : Except PercentileError (Option Number) :=
  match sorted[(rank - 1).toNat]? with
  | some value => .ok (some value)
  | none => .error (if 9223372036854775808 < rank then .rankTooLarge else .rankOutOfRange)

def nearestRank (values : List Number) (percentile : Number) :
    Except PercentileError (Option Number) :=
  let sorted := sortedNumbers values
  if values.any Number.isTooLarge then .error (.number .tooLarge)
  else if sorted.isEmpty then .ok none
  else
    match percentileRank percentile sorted.length with
    | .error error => .error (.number error)
    | .ok rank => atRank sorted rank

def nearestRankPresent (values : List (Option Number)) (percentile : Number) :
    Except PercentileError (Option Number) :=
  nearestRank (values.filterMap id) percentile

end CallSearch
