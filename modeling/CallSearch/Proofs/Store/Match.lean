import CallSearch.Proofs.Store.Depth
import CallSearch.Proofs.Store.Selection
import CallSearch.Store.Listing

namespace CallSearch

/-- Whether a predicate is a test that a call passes. -/
def Predicate.Holds (p : Predicate) (call : Call) : Prop :=
  ∃ test, Test.ofPredicate p = .ok test ∧ test.holds call = .ok true

def Matches (predicates : List Predicate) (call : Call) : Prop :=
  ∀ p ∈ predicates, p.Holds call

namespace Test

variable {call : Call} {test : Test} {tests : List Test} {predicates : List Predicate}

theorem answers_of_ok (h : ∀ test ∈ tests, ∃ passed, test.holds call = .ok passed) :
    answers tests call := by
  induction tests with
  | nil => rfl
  | cons test rest ih =>
    rw [List.forall_mem_cons] at h
    obtain ⟨⟨passed, first⟩, later⟩ := h
    rw [answers, holdAll, first]
    cases passed with
    | false => rfl
    | true => exact ih later

theorem passes_iff_matches (h : ofPredicates predicates = .ok tests) :
    passes tests call ↔ Matches predicates call := by
  induction predicates generalizing tests with
  | nil =>
    cases h
    exact iff_of_true rfl (by simp [Matches])
  | cons p rest ih =>
    rw [ofPredicates, List.mapM_cons] at h
    obtain ⟨test, first, h⟩ := ok_of_bind h
    obtain ⟨others, later, h⟩ := ok_of_bind h
    cases h
    rw [passes_cons, ih later, Matches, Matches, List.forall_mem_cons, Predicate.Holds]
    simp [first]

end Test

namespace Engine

variable {engine : Engine} {tests : List Test} {calls chosen : List Call}
  {predicates : List Predicate} {call : Call}

theorem holds_never (engine : Engine) (call : Call) : engine.holds .never call = false := by
  have held : Test.never.holds call = .ok (engine.holds .never call) := engine.holds_eq rfl call
  exact (Except.ok.inj held).symm

theorem select_ok (h : engine.select tests calls = .ok chosen) :
    chosen = calls.filter fun call ↦ tests.all (engine.holds · call) := by
  unfold select at h
  split at h
  · next never =>
    cases h
    -- A call never passes all tests if one is never passed.
    refine (List.filter_eq_nil_iff.mpr fun call _ passed ↦ ?_).symm
    have held := List.all_eq_true.mp passed .never (by simpa using never)
    rw [holds_never] at held
    cases held
  · split at h
    · cases h
    · split at h <;> cases h
      rfl

theorem select_inOrder_ok (h : inOrder.select tests calls = .ok chosen) :
    chosen = calls.filter (Test.passes tests) := by
  rw [select_ok h]
  exact List.filter_congr fun call _ ↦ all_holds_inOrder tests call

/-- Whether a call satisfies predicates for an engine. -/
def Satisfies (engine : Engine) (predicates : List Predicate) (call : Call) : Prop :=
  ∀ p ∈ predicates, ∃ test, Test.ofPredicate p = .ok test ∧ engine.holds test call

theorem satisfies_iff (translated : Test.ofPredicates predicates = .ok tests) :
    engine.Satisfies predicates call ↔ tests.all (engine.holds · call) := by
  induction predicates generalizing tests with
  | nil =>
    cases translated
    exact iff_of_true (by simp [Satisfies]) rfl
  | cons p rest ih =>
    rw [Test.ofPredicates, List.mapM_cons] at translated
    obtain ⟨test, first, translated⟩ := ok_of_bind translated
    obtain ⟨others, later, translated⟩ := ok_of_bind translated
    cases translated
    rw [List.all_cons, Bool.and_eq_true, ← ih later]
    simp [Satisfies, first]

end Engine

namespace CallTable

variable {table : CallTable} {predicates : List Predicate} {chosen : List Call}

theorem select_ok {engine : Engine} (h : table.select predicates engine = .ok chosen) :
    ∃ calls tests, table = some calls ∧ Test.ofQuery predicates = .ok tests ∧
      engine.select tests calls = .ok chosen := by
  obtain ⟨tests, read, h⟩ := ok_of_bind h
  cases table with
  | none => cases h
  | some calls => exact ⟨calls, tests, rfl, read, h⟩

theorem select_sublist (h : table.select predicates = .ok chosen) :
    chosen.Sublist (table.getD []) := by
  obtain ⟨calls, tests, rfl, -, selected⟩ := select_ok h
  exact Engine.select_sublist selected

theorem select_satisfying {engine : Engine} {calls : List Call}
    (h : select (some calls) predicates engine = .ok chosen) :
    chosen.Sublist calls ∧
      ∀ call, call ∈ chosen ↔ call ∈ calls ∧ engine.Satisfies predicates call := by
  obtain ⟨_, tests, same, read, selected⟩ := select_ok h
  cases same
  have translated := (Test.ofQuery_ok_iff.mp read).1
  rw [Engine.select_ok selected]
  refine ⟨List.filter_sublist, fun call ↦ ?_⟩
  rw [List.mem_filter, Engine.satisfies_iff translated]

theorem mem_select_iff (h : table.select predicates = .ok chosen) {call : Call} :
    call ∈ chosen ↔ call ∈ table.getD [] ∧ Matches predicates call := by
  obtain ⟨calls, tests, rfl, read, selected⟩ := select_ok h
  rw [Engine.select_inOrder_ok selected, List.mem_filter,
    Test.passes_iff_matches (Test.ofQuery_ok_iff.mp read).1]
  rfl

/-- Whether the store can run a query in the order of its calls and tests: it has its table, every
predicate is a test, they are not nested too deep, and they can be run on every call, unless one of
them is never passed anyway. -/
def Accepts (table : CallTable) (predicates : List Predicate) : Prop :=
  ∃ calls tests, table = some calls ∧ Test.ofQuery predicates = .ok tests ∧
    (.never ∈ tests ∨
      (∀ test ∈ tests, test.isBindable) ∧ ∀ call ∈ calls, Test.answers tests call)

theorem accepts_iff : table.Accepts predicates ↔ ∃ chosen, table.select predicates = .ok chosen := by
  constructor
  · rintro ⟨calls, tests, rfl, read, runs⟩
    rw [select, read]
    change ∃ chosen, Engine.inOrder.select tests calls = .ok chosen
    rw [Engine.select_inOrder]
    rcases runs with never | ⟨bindable, answers⟩
    · exact ⟨[], if_pos (by simpa using never)⟩
    · have all : tests.all Test.isBindable = true := List.all_eq_true.mpr bindable
      split
      · exact ⟨_, rfl⟩
      · rw [all, List.all_eq_true.mpr answers]
        exact ⟨_, rfl⟩
  · rintro ⟨chosen, h⟩
    obtain ⟨calls, tests, rfl, read, selected⟩ := select_ok h
    refine ⟨calls, tests, rfl, read, ?_⟩
    rw [Engine.select_inOrder] at selected
    split at selected
    · next never => exact Or.inl (by simpa using never)
    · split at selected
      · cases selected
      · next bindable =>
        split at selected
        · next answers =>
          rw [Bool.not_eq_true, Bool.not_eq_false'] at bindable
          exact Or.inr ⟨List.all_eq_true.mp bindable, List.all_eq_true.mp answers⟩
        · cases selected

theorem accepts_tests {calls : List Call} {tests : List Test}
    (read : Test.ofQuery predicates = .ok tests) :
    Accepts (some calls) predicates ↔
      .never ∈ tests ∨
        (∀ test ∈ tests, test.isBindable) ∧ ∀ call ∈ calls, Test.answers tests call := by
  constructor
  · rintro ⟨_, _, same, read', runs⟩
    cases same
    cases read.symm.trans read'
    exact runs
  · exact fun runs ↦ ⟨calls, tests, rfl, read, runs⟩

theorem select_answered {tests : List Test} (translated : Test.ofPredicates predicates = .ok tests)
    (short : tests.length ≤ 993) (bindable : ∀ test ∈ tests, test.isBindable)
    (answers : ∀ test ∈ tests, ∀ call, ∃ passed, test.holds call = .ok passed)
    (calls : List Call) :
    ∃ chosen, select (some calls) predicates = .ok chosen ∧ ∀ call, call ∈ chosen ↔
      call ∈ calls ∧ ∀ test ∈ tests, test.holds call = .ok true := by
  have accepted : Accepts (some calls) predicates :=
    ⟨calls, tests, rfl, Test.ofQuery_of_short translated short, Or.inr ⟨bindable, fun call _ ↦
      Test.answers_of_ok fun test among ↦ answers test among call⟩⟩
  obtain ⟨chosen, selected⟩ := accepts_iff.mp accepted
  refine ⟨chosen, selected, fun call ↦ ?_⟩
  rw [mem_select_iff selected, ← Test.passes_iff_matches translated, Test.passes_iff]
  rfl

theorem select_ext {calls chosen' : List Call} {predicates' : List Predicate}
    (h : select (some calls) predicates = .ok chosen)
    (h' : select (some calls) predicates' = .ok chosen')
    (same : ∀ call, call ∈ chosen ↔ call ∈ chosen') : chosen = chosen' := by
  obtain ⟨_, tests, given, -, selected⟩ := select_ok h
  obtain ⟨_, tests', given', -, selected'⟩ := select_ok h'
  cases given
  cases given'
  rw [Engine.select_inOrder_ok selected, Engine.select_inOrder_ok selected'] at same ⊢
  apply List.filter_congr
  intro call inside
  have agree := same call
  simp only [List.mem_filter, inside, true_and] at agree
  exact Bool.eq_iff_iff.mpr agree

theorem select_owned {p : Predicate} {test : Test} {passed : Call → Bool}
    (translated : Test.ofPredicate p = .ok test) (bindable : test.isBindable)
    (holds : ∀ call, test.holds call = .ok (passed call)) (agent : String) (calls : List Call) :
    select (some calls) [Predicate.owner agent, p] =
      .ok (calls.filter fun call ↦ call.agent == agent && passed call) := by
  have tests : Test.ofPredicates [Predicate.owner agent, p] = .ok [Test.owner agent, test] := by
    rw [Test.ofPredicates_owner, Test.ofPredicates_single translated]
    rfl
  have answers (call : Call) : Test.answers [Test.owner agent, test] call := by
    refine Test.answers_of_ok fun one among ↦ ?_
    rcases List.mem_pair.mp among with rfl | rfl
    · exact ⟨_, rfl⟩
    · exact ⟨_, holds call⟩
  have passes (call : Call) : Test.passes [Test.owner agent, test] call =
      (call.agent == agent && passed call) := by
    rw [Bool.eq_iff_iff, Test.passes_owner, Bool.and_comm, Bool.and_eq_true, Bool.and_eq_true,
      Test.passes_cons, holds]
    simp [Test.passes_iff]
  obtain ⟨chosen, selected⟩ := accepts_iff.mp
    ⟨calls, _, rfl, Test.ofQuery_of_short tests (by simp),
      Or.inr ⟨by simpa [Test.owner, Test.isBindable] using bindable, fun call _ ↦ answers call⟩⟩
  obtain ⟨same, translated', given, read, found⟩ := select_ok selected
  cases given
  cases tests.symm.trans (Test.ofQuery_ok_iff.mp read).1
  rw [selected, Engine.select_inOrder_ok found, List.filter_congr fun call _ ↦ passes call]

end CallTable

end CallSearch
