import CallSearch.Filter.Group
import CallSearch.Search.Term

namespace CallSearch.Search

structure Outline where
  logic : Logic
  conditions : List Condition
  alternatives : List (List Condition)
deriving DecidableEq, Inhabited

namespace Outline

def blank : Outline := ⟨.and, [], []⟩

def append (a b : Outline) : Outline where
  logic := if a.logic == .or || b.logic == .or then .or else .and
  conditions := a.conditions ++ b.conditions
  alternatives := a.alternatives ++ b.alternatives

def toGroup (outline : Outline) : Fresh Group := do
  let rules ← outline.conditions.mapM Condition.toRule
  let groups ← outline.alternatives.mapM fun conditions => do
    let rules ← conditions.mapM Condition.toRule
    return (⟨← freshId, .or, rules, []⟩ : Group)
  return ⟨← freshId, outline.logic, rules, groups⟩

end Outline

structure Scope where
  fields : List String
  defaults : List String := Column.textNames

def Scope.all : Scope := ⟨["all"], Column.textNames⟩

/-- The fields of a scope; no field or the word `all` means the default fields. -/
def Scope.resolve (scope : Scope) : List String :=
  if scope.fields.isEmpty || scope.fields.contains "all" then scope.defaults else scope.fields

/-- The condition that a field holds a text, or is equal to it. Only texts can be searched for a
part. -/
def fieldHolds (text : String) (exact : Bool) (field : String) : Condition :=
  let (column, subkey) := splitField field.toList
  let operation :=
    if subkey.isSome then (if exact then "json_equals" else "json_contains")
    else if exact || (Column.ofName? column).any (·.type != .text) then "equals"
    else "contains"
  ⟨column, operation, text, subkey⟩

def expand (scope : Scope) (text : String) (exact : Bool) : Outline :=
  match scope.resolve.map (fieldHolds text exact) with
  | [] => .blank
  | [condition] => ⟨.and, [condition], []⟩
  | conditions => ⟨.and, [], [conditions]⟩

def Term.outline (scope : Scope) (exact : Bool) : Term → Outline
  | .andWord => .blank
  | .orWord => ⟨.or, [], []⟩
  | .field condition => ⟨.and, [condition], []⟩
  | .phrase text => expand scope text true
  | .word text => expand scope text exact
  | .nothing => .blank

def outline (scope : Scope) (exact : Bool) (text : String) : Outline :=
  ((tokens text.toList).map fun token => (Term.ofToken token).outline scope exact).foldl
    Outline.append .blank

def parse (scope : Scope) (exact : Bool) (text : String) : Fresh Group :=
  (outline scope exact text).toGroup

end CallSearch.Search
