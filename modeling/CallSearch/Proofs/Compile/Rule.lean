import CallSearch.Compile.Rule
import CallSearch.Proofs.Compile.Value

namespace CallSearch

namespace Compile

variable {now : Timestamp} {types : ColumnTypes} {c : Condition}

def SeparatesNumber (value : String) : Prop :=
  (numberPart? value.toList).isSome ∧ ∃ c ∈ value.toList.takeWhile Text.isBlank, isSeparator c

/-- Whether an operation on a column of some type stops the compilation at the value of a
condition. -/
def StopsAt (now : Timestamp) (c : Condition) : ColumnType → Operation → Prop
  | .date, .equals | .date, .lessThan => NamesNoDay now c.value
  | .date, .greaterThan =>
    NamesNoDay now c.value ∨ ∃ day, parseDay now c.value = .ok day ∧ day.IsLast
  | .date, .between =>
    ∃ low high, parseRange c.value = .ok (low, high) ∧
      (NamesNoDay now low ∨ (∃ day, parseDay now low = .ok day) ∧ NamesNoDay now high)
  | _, .jsonGreaterThan | _, .jsonLessThan => SeparatesNumber c.value
  | _, _ => False

/-- Whether a condition stops the compilation of all rules. -/
def Blocks (types : ColumnTypes) (now : Timestamp) (c : Condition) : Prop :=
  ∃ operation type, prepare types c = .ok (operation, type) ∧ StopsAt now c type operation

@[simp] theorem not_stops_comparand (type : ColumnType) (raw : String) :
    ¬Stops (comparand c type raw) := by
  unfold comparand
  split
  · simp
  · simp

@[simp] theorem not_stops_comparison (type : ColumnType) (operator : Operator) :
    ¬Stops (comparison c type operator) := by
  simp [comparison]

@[simp] theorem stops_numericComparison_iff (operator : Operator) :
    Stops (numericComparison c operator) ↔ SeparatesNumber c.value := by
  rw [SeparatesNumber, ← leadingNumber_error_iff, numericComparison]
  cases leadingNumber c.value <;> simp [Stops]

theorem stops_operation_iff (type : ColumnType) (operation : Operation) :
    Stops (operationPredicates now c type operation) ↔ StopsAt now c type operation := by
  cases operation with
  | contains | startsWith | endsWith | isEmpty | jsonEquals | jsonContains | jsonExists =>
    cases type <;> exact iff_of_false (not_stops_ok _) id
  | jsonGreaterThan | jsonLessThan =>
    cases type <;> simp only [operationPredicates, StopsAt, stops_numericComparison_iff]
  | equals | lessThan => cases type <;> simp [operationPredicates, StopsAt]
  | greaterThan => cases type <;> simp [operationPredicates, StopsAt, Date.next?_eq_none_iff]
  | between =>
    cases type with
    | date => simp [operationPredicates, StopsAt]
    | text | number | json => simp [operationPredicates, StopsAt]

theorem stops_condition_iff : Stops (condition types now c) ↔ Blocks types now c := by
  unfold condition Blocks
  cases prepared : prepare types c with
  | error fault => simp [not_stops_fault]
  | ok found =>
    obtain ⟨operation, type⟩ := found
    simp [stops_operation_iff]

end Compile

end CallSearch
