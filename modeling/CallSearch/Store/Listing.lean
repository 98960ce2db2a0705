import CallSearch.Predicate.Sort
import CallSearch.Store.Test

namespace CallSearch

namespace Call

def inOrder (column : CallColumn) (a b : Call) : Bool :=
  (a.cell column).inOrder (b.cell column)
    && (!(b.cell column).inOrder (a.cell column) || a.id ≤ b.id)

end Call

namespace SortOrder

/-- The column that an order is by; a column that is unknown means the time of creation. -/
def target (order : SortOrder) : CallColumn := (CallColumn.ofName? order.column).getD .createdAt

def precedes (order : SortOrder) (a b : Call) : Bool :=
  if order.ascending then a.inOrder order.target b else b.inOrder order.target a

def list (order : SortOrder) (calls : List Call) : List Call := calls.mergeSort order.precedes

end SortOrder

/-- A part of a listing: how many items are left out at its start and how many are taken. Less than
nothing is left out means nothing is, and a negative number takes all. -/
structure Window where
  offset : Int := 0
  limit : Option Int := some 50

namespace Window

def isBindable (window : Window) : Bool :=
  (Number.int window.offset).fits && window.limit.all fun n => (Number.int n).fits

def of {α : Type} (window : Window) (items : List α) : List α :=
  let rest := items.drop window.offset.toNat
  match window.limit with
  | some n => if n < 0 then rest else rest.take n.toNat
  | none => rest

end Window

inductive LookbackError where
  | beforeCalendar
  | tooManyDays (days : Int)
  | tooLarge
  | query (error : QueryError)
deriving DecidableEq

def LookbackError.message? : LookbackError → Option String
  | .beforeCalendar => some "date value out of range"
  | .tooManyDays days =>
    some ("days=" ++ toString days ++ "; must have magnitude <= 999999999")
  | .tooLarge => some "Python int too large to convert to C int"
  | .query error => error.message?

def lookback (now : Timestamp) (days : Int) : Except LookbackError Timestamp :=
  if days < -2147483648 || 2147483648 ≤ days then .error .tooLarge
  else if 999999999 < days.natAbs then .error (.tooManyDays days)
  else (now.subDays? days).elim (.error .beforeCalendar) .ok

namespace CallTable

def select (table : CallTable) (predicates : List Predicate) (engine : Engine := .inOrder) :
    Except QueryError (List Call) := do
  let tests ← Test.ofQuery predicates
  let some calls := table | throw .refused
  engine.select tests calls

def count (table : CallTable) (predicates : List Predicate) (engine : Engine := .inOrder) :
    Except QueryError Nat :=
  (table.select predicates engine).map List.length

def fetch (table : CallTable) (predicates : List Predicate) (order : SortOrder) (window : Window)
    (engine : Engine := .inOrder) : Except QueryError (List Call) := do
  let tests ← Test.ofQuery predicates
  let some calls := table | throw .refused
  if !window.isBindable then throw .integerTooLarge
  return window.of (order.list (← engine.select tests calls))

/-- Pages of some size from an offset on, up to the first that is not full. `fuel` bounds their
number. -/
def pagesFrom (table : CallTable) (predicates : List Predicate) (order : SortOrder) (size : Int) :
    Nat → Int → Except QueryError (List Call)
  | 0, _ => .ok []
  | fuel + 1, offset => do
    let page ← table.fetch predicates order ⟨offset, some size⟩
    if (page.length : Int) < size then return page
    return page ++ (← pagesFrom table predicates order size fuel (offset + size))

def fetchAll (table : CallTable) (predicates : List Predicate) (order : SortOrder) (size : Int) :
    Except QueryError (List Call) :=
  table.pagesFrom predicates order size ((table.getD []).length + 1) 0

def ofAgent (table : CallTable) (agent : String) : Except QueryError (List Call) :=
  match table with
  | some calls => .ok (calls.filter (·.agent == agent))
  | none => .error .refused

def sample (table : CallTable) (agent : String) (limit : Option Int) :
    Except QueryError (List Call) := do
  let calls ← table.ofAgent agent
  let window : Window := ⟨0, limit⟩
  if !window.isBindable then throw .integerTooLarge
  return window.of (({ column := "created_at" } : SortOrder).list calls)

/-- The calls of an agent in some last days, or of all days, in the order of their ids. -/
def signalCalls (table : CallTable) (now : Timestamp) (agent : String) (days : Option Int) :
    Except LookbackError (List Call) := do
  let since ← match days with
    | some days => if days = 0 then pure none else some <$> lookback now days
    | none => pure none
  let calls ← (table.ofAgent agent).mapError .query
  let recent := calls.filter fun call => since.all fun t => t.key ≤ call.createdAt.key
  return ({ column := "id", ascending := true } : SortOrder).list recent

end CallTable

end CallSearch
