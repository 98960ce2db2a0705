import CallSearch.Proofs.Store.Match

namespace CallSearch

def Operator.order? : Operator → Option Relation
  | .atLeast => some .atLeast
  | .atMost => some .atMost
  | .above => some .above
  | .below => some .below
  | _ => none

section Times

variable {t bound : Timestamp}

@[simp] theorem Relation.atLeast_time :
    Relation.atLeast.holds (.time t) (.time bound) ↔ bound.key ≤ t.key := by
  simp only [holds, Cell.equal, Cell.before, Bool.or_eq_true, beq_iff_eq, decide_eq_true_eq]
  omega

@[simp] theorem Relation.atMost_time :
    Relation.atMost.holds (.time t) (.time bound) ↔ t.key ≤ bound.key := by
  simp only [holds, Cell.equal, Cell.before, Bool.or_eq_true, beq_iff_eq, decide_eq_true_eq]
  omega

@[simp] theorem Relation.below_time :
    Relation.below.holds (.time t) (.time bound) ↔ t.key < bound.key := by
  simp only [holds, Cell.before, decide_eq_true_eq]

end Times

/-- A relation in which the time at which a call started has to stand to an instant. -/
structure StartBound where
  relation : Relation
  instant : Timestamp

namespace StartBound

def test (bound : StartBound) : Test :=
  .compare ⟨.time .startedAt, none, false⟩ bound.relation (.time bound.instant)

def Holds (bound : StartBound) (call : Call) : Prop :=
  bound.relation.holds (call.cell (.time .startedAt)) (.time bound.instant)

variable {operator : Operator} {relation : Relation} {instant : Timestamp} {s : String}

theorem ofPredicate_eq (order : operator.order? = some relation)
    (read : Iso.timestamp s = .ok instant) :
    Test.ofPredicate ⟨"call_started_at", operator, .text s⟩ = .ok (test ⟨relation, instant⟩) := by
  have parsed : Expression.parse "call_started_at" = .ok ⟨"call_started_at", none, false⟩ := by cbv
  have source : Source.ofExpression ⟨"call_started_at", none, false⟩ =
      .ok ⟨.time .startedAt, none, false⟩ := by cbv
  have coerced : Test.coerce ⟨.time .startedAt, none, false⟩ (.text s) = .ok (.time instant) := by
    simp only [Test.coerce, read, Option.isSome_none, Bool.false_eq_true, if_false]
  rw [Test.ofPredicate, Predicate.expression, parsed]
  cases operator <;> cases order <;>
  · simp only [Except.mapError, bind, Except.bind, source, coerced]
    rfl

theorem select_eq {predicates : List Predicate} {bounds : List StartBound}
    (translated : Test.ofPredicates predicates = .ok (bounds.map test)) (few : bounds.length ≤ 993)
    (calls : List Call) :
    ∃ chosen, CallTable.select (some calls) predicates = .ok chosen ∧
      ∀ call, call ∈ chosen ↔ call ∈ calls ∧ ∀ bound ∈ bounds, bound.Holds call := by
  have bindable : ∀ test ∈ bounds.map StartBound.test, test.isBindable := by
    intro test among
    obtain ⟨bound, -, rfl⟩ := List.mem_map.mp among
    rfl
  have answers : ∀ test ∈ bounds.map StartBound.test, ∀ call, ∃ passed,
      test.holds call = .ok passed := by
    intro test among call
    obtain ⟨bound, -, rfl⟩ := List.mem_map.mp among
    exact ⟨_, rfl⟩
  obtain ⟨chosen, selected, mem_iff⟩ :=
    CallTable.select_answered translated (by simpa using few) bindable answers calls
  refine ⟨chosen, selected, fun call ↦ ?_⟩
  rw [mem_iff, List.forall_mem_map]
  simp [test, Holds, Test.holds, Source.cell, Source.plainCell]

end StartBound

end CallSearch
