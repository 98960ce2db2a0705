import CallSearch.Number
import CallSearch.Predicate.Expression

namespace CallSearch

inductive Value where
  | null
  | bool (b : Bool)
  | number (n : Number)
  | text (s : String)
deriving DecidableEq, Inhabited

namespace Value

def number? : Value → Option Number
  | .bool b => some (.int (if b then 1 else 0))
  | .number n => some n
  | _ => none

def same (a b : Value) : Bool :=
  match a, b with
  | .null, .null => true
  | .text s, .text t => s == t
  | _, _ =>
    match a.number?, b.number? with
    | some m, some n => m.same n
    | _, _ => false

end Value

inductive Operator where
  | equals
  | matchesPattern
  | atLeast
  | atMost
  | above
  | below
  | notNull
  | isNull
deriving DecidableEq, Inhabited

namespace Operator

def all : List Operator :=
  [.equals, .matchesPattern, .atLeast, .atMost, .above, .below, .notNull, .isNull]

def name : Operator → String
  | .equals => "equals"
  | .matchesPattern => "pattern_match"
  | .atLeast => "gte"
  | .atMost => "lte"
  | .above => "gt"
  | .below => "lt"
  | .notNull => "not_null"
  | .isNull => "is_null"

def ofName? (name : String) : Option Operator := all.find? (·.name == name)

end Operator

/-- A test on the rows of the store. The expression is in its written form. -/
structure Predicate where
  column : String
  operator : Operator
  value : Value
deriving DecidableEq, Inhabited

namespace Predicate

def expression (p : Predicate) : Except ExpressionError Expression := Expression.parse p.column

def same (p q : Predicate) : Bool :=
  p.column == q.column && p.operator == q.operator && p.value.same q.value

def sameAll : List Predicate → List Predicate → Bool
  | [], [] => true
  | p :: ps, q :: qs => p.same q && sameAll ps qs
  | _, _ => false

def owner (agent : String) : Predicate := ⟨"agent_id", .equals, .text agent⟩

end Predicate

end CallSearch
