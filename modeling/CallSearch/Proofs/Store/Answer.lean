import CallSearch.Proofs.Store.Match

namespace CallSearch

namespace Engine

variable {tests : List Test}

theorem select_never (engine : Engine) (never : .never ∈ tests) (calls : List Call) :
    engine.select tests calls = .ok [] :=
  if_pos (by simpa using never)

theorem select_large (engine : Engine) (some : .never ∉ tests)
    (large : ¬∀ test ∈ tests, test.isBindable) (calls : List Call) :
    engine.select tests calls = .error .integerTooLarge := by
  rw [← List.all_eq_true] at large
  rw [select, if_neg (by simpa using some), if_pos (by simpa using large)]

theorem select_safe (engine : Engine) (some : .never ∉ tests)
    (bindable : ∀ test ∈ tests, test.isBindable) (safe : ∀ test ∈ tests, test.isSafe)
    (calls : List Call) :
    engine.select tests calls = .ok (calls.filter fun call ↦ tests.all (engine.holds · call)) := by
  rw [← List.all_eq_true] at bindable
  rw [select, if_neg (by simpa using some), if_neg (by simpa using bindable),
    engine.meets_eq safe calls]
  rfl

end Engine

namespace CallTable

/-- Whether a query is answered: its calls are counted, and every page of them is given. -/
structure Answers (table : CallTable) (predicates : List Predicate) (engine : Engine) : Prop where
  count : ∃ n, table.count predicates engine = .ok n
  fetch : ∀ order window, window.isBindable →
    ∃ page, table.fetch predicates order window engine = .ok page

/-- Whether a query is refused with some error, by its count and by all its pages. -/
structure Refuses (table : CallTable) (predicates : List Predicate) (engine : Engine)
    (error : QueryError) : Prop where
  count : table.count predicates engine = .error error
  fetch : ∀ order window, window.isBindable →
    table.fetch predicates order window engine = .error error

variable {predicates : List Predicate} {engine : Engine} {tests : List Test} {calls : List Call}
  {error : QueryError}

theorem Answers.of_select {chosen : List Call} (read : Test.ofQuery predicates = .ok tests)
    (selected : engine.select tests calls = .ok chosen) :
    Answers (some calls) predicates engine where
  count := by
    refine ⟨chosen.length, ?_⟩
    simp [CallTable.count, select, read, bind, Except.bind, selected, Except.map]
  fetch order window bindable := by
    refine ⟨window.of (order.list chosen), ?_⟩
    simp [CallTable.fetch, read, bind, Except.bind, bindable, selected, pure, Except.pure]

theorem Refuses.of_select (read : Test.ofQuery predicates = .ok tests)
    (refused : engine.select tests calls = .error error) :
    Refuses (some calls) predicates engine error where
  count := by simp [CallTable.count, select, read, bind, Except.bind, refused, Except.map]
  fetch order window bindable := by
    simp [CallTable.fetch, read, bind, Except.bind, bindable, refused]

theorem Refuses.of_ofQuery (refused : Test.ofQuery predicates = .error error)
    (table : CallTable) (engine : Engine) : Refuses table predicates engine error where
  count := by rw [CallTable.count, select, refused]; rfl
  fetch order window bindable := by rw [CallTable.fetch, refused]; rfl

end CallTable

end CallSearch
