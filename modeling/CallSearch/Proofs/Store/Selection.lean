import Mathlib
import CallSearch.Store.Test

namespace CallSearch

namespace Test

variable {call : Call} {tests : List Test} {calls : List Call}

def answers (tests : List Test) (call : Call) : Bool := (holdAll call tests).isOk

def passes (tests : List Test) (call : Call) : Bool := holdAll call tests matches .ok true

theorem passes_cons {test : Test} :
    passes (test :: tests) call ↔ test.holds call = .ok true ∧ passes tests call := by
  unfold passes
  rw [holdAll]
  cases test.holds call with
  | error e => simp [bind, Except.bind]
  | ok passed => cases passed <;> simp [bind, Except.bind, pure, Except.pure]

theorem passes_iff : passes tests call ↔ ∀ test ∈ tests, test.holds call = .ok true := by
  induction tests with
  | nil => exact iff_of_true rfl (by simp)
  | cons test rest ih => rw [passes_cons, ih, List.forall_mem_cons]

end Test

namespace Engine

variable {tests : List Test} {calls : List Call}

theorem holds_inOrder {test : Test} {call : Call} :
    inOrder.holds test call ↔ test.holds call = .ok true := by
  simp only [inOrder]
  split <;> simp_all

theorem all_holds_inOrder (tests : List Test) (call : Call) :
    tests.all (inOrder.holds · call) = Test.passes tests call := by
  rw [Bool.eq_iff_iff, Test.passes_iff, List.all_eq_true]
  exact forall₂_congr fun test _ ↦ holds_inOrder

theorem select_inOrder (tests : List Test) (calls : List Call) :
    inOrder.select tests calls =
      if tests.contains .never then .ok []
      else if !tests.all Test.isBindable then .error .integerTooLarge
      else if calls.all (Test.answers tests) then .ok (calls.filter (Test.passes tests))
      else .error .refused := by
  have meets : inOrder.meets tests calls = !calls.all (Test.answers tests) := by
    rw [List.not_all_eq_any_not]
    rfl
  rw [select, meets, List.filter_congr fun call _ ↦ all_holds_inOrder tests call]
  cases calls.all (Test.answers tests) <;> rfl

end Engine

namespace Test

def owner (agent : String) : Test := .compare ⟨.agent, none, false⟩ .equal (.text agent)

theorem ofPredicate_owner (agent : String) :
    ofPredicate (Predicate.owner agent) = .ok (owner agent) := by
  have parsed : (Predicate.owner agent).expression = .ok ⟨"agent_id", none, false⟩ := by
    change Expression.parse "agent_id" = _
    cbv
  rw [ofPredicate, parsed]
  rfl

theorem ofPredicates_cons {p : Predicate} {test : Test} (translated : ofPredicate p = .ok test)
    (predicates : List Predicate) :
    ofPredicates (p :: predicates) = (ofPredicates predicates).map (test :: ·) := by
  rw [ofPredicates, List.mapM_cons, translated, ← ofPredicates]
  cases ofPredicates predicates <;> rfl

theorem ofPredicates_single {p : Predicate} {test : Test} (translated : ofPredicate p = .ok test) :
    ofPredicates [p] = .ok [test] :=
  ofPredicates_cons translated []

theorem ofPredicates_owner (agent : String) (predicates : List Predicate) :
    ofPredicates (Predicate.owner agent :: predicates) =
      (ofPredicates predicates).map (owner agent :: ·) :=
  ofPredicates_cons (ofPredicate_owner agent) predicates

variable {call : Call} {agent : String} {tests : List Test}

theorem holdAll_owner :
    holdAll call (owner agent :: tests) =
      if call.agent == agent then holdAll call tests else .ok false := rfl

theorem answers_owner :
    answers (owner agent :: tests) call = (!(call.agent == agent) || answers tests call) := by
  rw [answers, holdAll_owner]
  cases call.agent == agent <;> rfl

theorem passes_owner :
    passes (owner agent :: tests) call = (passes tests call && call.agent == agent) := by
  rw [passes, holdAll_owner]
  cases call.agent == agent
  · exact (Bool.and_false _).symm
  · exact (Bool.and_true _).symm

end Test

namespace Engine

variable {tests : List Test} {calls others chosen : List Call}

/-- Queries for an agent are queries to the calls of the agent. -/
theorem select_owner (agent : String) (tests : List Test) (calls : List Call) :
    inOrder.select (Test.owner agent :: tests) calls =
      inOrder.select (Test.owner agent :: tests) (calls.filter (·.agent == agent)) := by
  have answers : calls.all (Test.answers (Test.owner agent :: tests)) =
      (calls.filter (·.agent == agent)).all (Test.answers (Test.owner agent :: tests)) := by
    rw [List.all_filter]
    refine congrArg calls.all (funext fun call ↦ ?_)
    rw [Test.answers_owner]
    cases call.agent == agent <;> rfl
  have passes : calls.filter (Test.passes (Test.owner agent :: tests)) =
      (calls.filter (·.agent == agent)).filter (Test.passes (Test.owner agent :: tests)) := by
    rw [List.filter_filter]
    refine List.filter_congr fun call _ ↦ ?_
    rw [Test.passes_owner, Bool.and_assoc, Bool.and_self]
  rw [select_inOrder, select_inOrder, answers, passes]

theorem select_sublist (h : inOrder.select tests calls = .ok chosen) : chosen.Sublist calls := by
  rw [select_inOrder] at h
  split at h
  · cases h
    exact List.nil_sublist calls
  · split at h
    · cases h
    · split at h
      · cases h
        exact List.filter_sublist
      · cases h

theorem select_congr {α : Type} (same : calls.Perm others) (question : List Call → α)
    (part : ∀ p : Call → Bool, question (calls.filter p) = question (others.filter p))
    (tests : List Test) :
    (inOrder.select tests calls).map question = (inOrder.select tests others).map question := by
  rw [select_inOrder, select_inOrder, same.all_eq]
  split
  · rfl
  · split
    · rfl
    · split
      · exact congrArg Except.ok (part _)
      · rfl

end Engine

end CallSearch
