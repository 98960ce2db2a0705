import CallSearch.Calendar.Iso
import CallSearch.Predicate.Basic
import CallSearch.Store.Pattern
import CallSearch.Store.Source

namespace CallSearch

inductive Relation where
  | equal
  | atLeast
  | atMost
  | above
  | below
deriving DecidableEq

namespace Relation

/-- Whether a cell stands in a relation to a bound. Nothing stands in any relation. -/
def holds (relation : Relation) (cell bound : Cell) : Bool :=
  match relation with
  | .equal => cell.equal bound
  | .atLeast => cell.equal bound || bound.before cell
  | .atMost => cell.equal bound || cell.before bound
  | .above => bound.before cell
  | .below => cell.before bound

end Relation

inductive Test where
  | never
  | compare (source : Source) (relation : Relation) (bound : Cell)
  | fits (source : Source) (pattern : Cell)
  | isNull (source : Source)
  | isEmpty (source : Source)
  | notNull (source : Source)
deriving DecidableEq

namespace Test

/-- A value in the type of a column: texts are read as times for columns of times and as numbers for
columns of numbers. -/
def coerce (source : Source) : Value → Except QueryError Cell
  | .null => .ok .null
  | .bool b => .ok (.number (.int (if b then 1 else 0)))
  | .number n => .ok (.number n)
  | .text s =>
    if source.path.isSome then .ok (.text s)
    else
      match source.column with
      | .createdAt | .time _ =>
        match Iso.timestamp s with
        | .ok t => .ok (.time t)
        | .error _ => .error (.invalidTime s)
      | .number _ =>
        match Double.ofText? s with
        | some x => .ok (Cell.ofDouble x)
        | none => .error (.invalidNumber s)
      | _ => .ok (.text s)

def comparison (source : Source) (relation : Relation) (bound : Cell) : Test :=
  .compare source relation (source.affinity.bring bound)

/-- The test that a source stands in an order relation to a value. Truth values have no order. -/
def order (source : Source) (relation : Relation) (value : Value) (bound : Cell) :
    Except QueryError Test :=
  match value with
  | .null => .ok .never
  | .bool _ => .error .refused
  | _ => .ok (comparison source relation bound)

def pattern (source : Source) : Value → Except QueryError Test
  | .text s => .ok (.fits source (.text s))
  | .number n => .ok (.fits source (.number n))
  | _ => .error .refused

def ofPredicate (p : Predicate) : Except QueryError Test := do
  let expression ← p.expression.mapError .expression
  let source ← Source.ofExpression expression
  if p.operator == .matchesPattern then pattern source p.value
  else
    let bound ← coerce source p.value
    match p.operator with
    | .equals =>
      return if p.value == .null then .isNull source else comparison source .equal bound
    | .atLeast => order source .atLeast p.value bound
    | .atMost => order source .atMost p.value bound
    | .above => order source .above p.value bound
    | .below => order source .below p.value bound
    | .notNull => return .notNull source
    | _ => return .isEmpty source

def isBindable : Test → Bool
  | .compare _ _ (.number n) => n.fits
  | .fits _ (.number n) => n.fits
  | _ => true

def patternText? : Cell → Option String
  | .number (.real x) => if x.isNan then none else some x.storeText
  | cell => cell.asText

def fitsPattern (pattern cell : Cell) : Except QueryError Bool :=
  match patternText? pattern with
  | none => .ok false
  | some pattern =>
    if Pattern.sizeLimit < pattern.utf8ByteSize then .error .refused
    else .ok (cell.asText.any (Pattern.fits pattern))

def holds (call : Call) : Test → Except QueryError Bool
  | .never => .ok false
  | .compare source relation bound => .ok (relation.holds (source.cell call) bound)
  | .fits source pattern => fitsPattern pattern (source.cell call)
  | .isNull source => .ok (source.cell call).isNull
  | .isEmpty source => .ok ((source.cell call).isNull || source.cell call == .text "")
  | .notNull source => .ok (!(source.cell call).isNull)

def holdAll (call : Call) : List Test → Except QueryError Bool
  | [] => .ok true
  | test :: rest => do if ← test.holds call then holdAll call rest else return false

def ofPredicates (predicates : List Predicate) : Except QueryError (List Test) :=
  predicates.mapM ofPredicate

/-- How deep the store nests a test. A member is taken out of its document and made a text, and a
pattern is compared with texts in lower case. -/
def depth : Test → Nat
  | .never => 1
  | .compare source .. | .isNull source | .notNull source => source.depth + 1
  | .fits source _ => if source.isText && !source.numeric then source.depth + 2 else source.depth + 3
  | .isEmpty source => if source.isText then source.depth + 2 else source.depth + 1

/-- How deep the store nests the conjunction of some tests, which it builds up from the first. -/
def depthOfAll : List Test → Nat
  | [] => 0
  | test :: rest => rest.foldl (fun depth other => max depth other.depth + 1) test.depth

def depthLimit : Nat := 1000

/-- Whether tests are nested too deep. They are not if nothing passes one of them, as then there is
no conjunction. -/
def areDeep (tests : List Test) : Bool := !tests.contains .never && depthLimit < depthOfAll tests

def ofQuery (predicates : List Predicate) : Except QueryError (List Test) := do
  let tests ← ofPredicates predicates
  if areDeep tests then throw .refused
  return tests

/-- Whether a test can be run on every call: it reads a plain path, and no pattern that is too
long. -/
def isSafe : Test → Bool
  | .never => true
  | .compare source .. | .isNull source | .isEmpty source | .notNull source => source.isPlain
  | .fits source pattern =>
    source.isPlain && (patternText? pattern).all (·.utf8ByteSize ≤ Pattern.sizeLimit)

theorem holds_of_isSafe {test : Test} (safe : test.isSafe) (call : Call) :
    ∃ passed, test.holds call = .ok passed := by
  cases test with
  | fits source pattern =>
    simp only [holds, fitsPattern]
    cases text : patternText? pattern with
    | none => exact ⟨false, rfl⟩
    | some pattern =>
      simp only [isSafe, text, Option.all_some, Bool.and_eq_true, decide_eq_true_eq] at safe
      exact ⟨_, if_neg (Nat.not_lt.mpr safe.2)⟩
  | _ => exact ⟨_, rfl⟩

theorem holdAll_of_isSafe {tests : List Test} (safe : ∀ test ∈ tests, test.isSafe) (call : Call) :
    ∃ passed, holdAll call tests = .ok passed := by
  induction tests with
  | nil => exact ⟨true, rfl⟩
  | cons test rest ih =>
    obtain ⟨passed, first⟩ := holds_of_isSafe (safe test List.mem_cons_self) call
    rw [holdAll, first]
    cases passed with
    | true => exact ih fun other among => safe other (List.mem_cons_of_mem _ among)
    | false => exact ⟨false, rfl⟩

end Test

/-- How the store runs the tests of a query is its own plan: it takes them in any order, leaves out
calls by its indexes and tries some tests before it looks at any call. So a test that cannot be run
on a call may be met or not. All other tests are decided by the calls alone. -/
structure Engine where
  holds : Test → Call → Bool
  meets : List Test → List Call → Bool
  holds_eq : ∀ {test : Test}, test.isSafe → ∀ call, test.holds call = .ok (holds test call)
  meets_eq : ∀ {tests : List Test}, (∀ test ∈ tests, test.isSafe) → ∀ calls, meets tests calls = false

namespace Engine

def inOrder : Engine where
  holds test call := test.holds call matches .ok true
  meets tests calls := calls.any fun call => !(Test.holdAll call tests).isOk
  holds_eq safe call := by
    obtain ⟨passed, held⟩ := Test.holds_of_isSafe safe call
    cases passed <;> simp [held]
  meets_eq safe calls := by
    rw [List.any_eq_false]
    intro call _
    obtain ⟨passed, held⟩ := Test.holdAll_of_isSafe safe call
    simp [held, Except.isOk, Except.toBool]

/-- The calls that pass all tests, if the store can run them. A test that nothing passes makes the
bounds of the others irrelevant. -/
def select (engine : Engine) (tests : List Test) (calls : List Call) :
    Except QueryError (List Call) :=
  if tests.contains .never then .ok []
  else if !tests.all Test.isBindable then .error .integerTooLarge
  else if engine.meets tests calls then .error .refused
  else .ok (calls.filter fun call => tests.all (engine.holds · call))

end Engine

end CallSearch
