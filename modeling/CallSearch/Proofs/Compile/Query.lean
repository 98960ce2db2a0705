import CallSearch.Compile.Query
import CallSearch.Proofs.Compile.Rule

namespace CallSearch

namespace Compile

variable {types : ColumnTypes} {now : Timestamp} {source : QuerySource} {compilation : Compilation}

theorem query_ok (h : query source = .ok compilation) :
    ∃ compiled reached, rules source.types source.now (Forest.rules source.groups) = .ok compiled ∧
      anomalies source.toggles source.thresholds = .ok reached ∧
      compilation.predicates = source.owner.toList ++ compiled.predicates ++ reached ∧
      compilation.dropped = compiled.dropped := by
  obtain ⟨compiled, hrules, h⟩ := ok_of_bind h
  obtain ⟨reached, hanomalies, h⟩ := ok_of_bind h
  cases h
  exact ⟨compiled, reached, hrules, hanomalies, rfl, rfl⟩

/-- The predicates of a rule; one with a fault has none. -/
def predicatesOf (types : ColumnTypes) (now : Timestamp) (rule : Rule) : List Predicate :=
  (condition types now rule.toCondition).toOption.getD []

def faultOf? (types : ColumnTypes) (now : Timestamp) (rule : Rule) : Option RuleFault :=
  match condition types now rule.toCondition with
  | .error (.fault fault) => some fault
  | _ => none

/-- The compilation of rules that do not block. -/
def report (types : ColumnTypes) (now : Timestamp) (items : List Rule) : Compilation where
  predicates := items.flatMap (predicatesOf types now)
  dropped := items.filterMap fun rule ↦ (faultOf? types now rule).map fun fault ↦ (rule, fault)

theorem rules_eq_ok_iff {items : List Rule} :
    rules types now items = .ok compilation ↔
      (∀ rule ∈ items, ¬Blocks types now rule.toCondition) ∧
        compilation = report types now items := by
  simp only [← stops_condition_iff]
  induction items generalizing compilation with
  | nil => simp [rules, report, eq_comm]
  | cons rule rest ih =>
    rw [rules, List.forall_mem_cons]
    cases compiled : condition types now rule.toCondition with
    | error failure =>
      cases failure with
      | stop stop => simp [Stops]
      | fault fault =>
        have first : report types now (rule :: rest) =
            { report types now rest with
              dropped := (rule, fault) :: (report types now rest).dropped } := by
          simp [report, predicatesOf, faultOf?, compiled, Except.toOption]
        simp [ok_map_iff, ih, first, @eq_comm _ compilation]
    | ok predicates =>
      have first : report types now (rule :: rest) =
          { report types now rest with
            predicates := predicates ++ (report types now rest).predicates } := by
        simp [report, predicatesOf, faultOf?, compiled, Except.toOption]
      simp [ok_map_iff, ih, first, @eq_comm _ compilation]

theorem signals_ok_iff {toggles : List Toggle} :
    (∃ active, signals toggles = .ok active) ↔
      ∀ toggle ∈ toggles, ∃ signal, toggle = .signal signal := by
  induction toggles with
  | nil => exact iff_of_true ⟨[], rfl⟩ (by simp)
  | cons toggle rest ih =>
    rw [List.forall_mem_cons, ← ih, signals, List.mapM_cons]
    cases toggle with
    | unknown shown =>
      refine iff_of_false ?_ ?_
      · rintro ⟨active, h⟩
        cases h
      · rintro ⟨⟨signal, h⟩, -⟩
        cases h
    | signal signal =>
      rw [← signals]
      cases signals rest with
      | error stop => exact iff_of_false (by rintro ⟨_, h⟩; cases h) (by rintro ⟨-, _, h⟩; cases h)
      | ok active => exact iff_of_true ⟨signal :: active, rfl⟩ ⟨⟨signal, rfl⟩, active, rfl⟩

theorem anomalies_ok_iff {toggles : List Toggle} {thresholds : Option Thresholds} :
    (∃ reached, anomalies toggles thresholds = .ok reached) ↔
      (thresholds.isSome → ∀ toggle ∈ toggles, ∃ signal, toggle = .signal signal) := by
  cases thresholds with
  | none => simp [anomalies]
  | some thresholds =>
    rw [← signals_ok_iff]
    simp [anomalies, ok_map_iff]

/-- A query has a result exactly if none of its rules blocks and all signals that it needs are
known. Then each rule with a fault is reported once, in order, and all others are compiled. -/
theorem query_report (source : QuerySource) :
    ((∃ compilation, query source = .ok compilation) ↔
      (∀ rule ∈ Forest.rules source.groups, ¬Blocks source.types source.now rule.toCondition) ∧
        (source.thresholds.isSome →
          ∀ toggle ∈ source.toggles, ∃ signal, toggle = .signal signal)) ∧
      ∀ compilation, query source = .ok compilation →
        compilation.dropped =
            (report source.types source.now (Forest.rules source.groups)).dropped ∧
          ∃ reached, anomalies source.toggles source.thresholds = .ok reached ∧
            compilation.predicates = source.owner.toList ++
              (report source.types source.now (Forest.rules source.groups)).predicates ++
              reached := by
  constructor
  · simp only [← anomalies_ok_iff]
    constructor
    · rintro ⟨compilation, h⟩
      obtain ⟨compiled, reached, hrules, hanomalies, -, -⟩ := query_ok h
      exact ⟨(rules_eq_ok_iff.mp hrules).1, reached, hanomalies⟩
    · rintro ⟨free, reached, hanomalies⟩
      have hrules := rules_eq_ok_iff.mpr ⟨free, rfl⟩
      rw [query, hrules, hanomalies]
      exact ⟨_, rfl⟩
  · intro compilation h
    obtain ⟨compiled, reached, hrules, hanomalies, predicates, dropped⟩ := query_ok h
    obtain ⟨-, rfl⟩ := rules_eq_ok_iff.mp hrules
    exact ⟨dropped, reached, hanomalies, predicates⟩

def afterTheLastDay : QuerySource where
  types := []
  now := .startOf default
  owner := none
  groups := [⟨"g", .and, [⟨⟨"call_started_at", "greater_than", "9999-12-31", none⟩, "r"⟩], []⟩]
  toggles := []
  thresholds := none

theorem query_afterTheLastDay :
    (∀ toggle ∈ afterTheLastDay.toggles, ∃ signal, toggle = .signal signal) ∧
      query afterTheLastDay = .error .dayOutOfRange := by
  refine ⟨by simp [afterTheLastDay], ?_⟩
  rfl

end Compile

end CallSearch
