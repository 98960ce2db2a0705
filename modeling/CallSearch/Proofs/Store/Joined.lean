import CallSearch.Proofs.Store.Match

namespace CallSearch

variable {call : Call} {predicates others : List Predicate}

theorem Engine.satisfies_flatten {engine : Engine} {pieces : List (List Predicate)} :
    engine.Satisfies pieces.flatten call ↔ ∀ piece ∈ pieces, engine.Satisfies piece call := by
  constructor
  · intro all piece among p inside
    exact all p (List.mem_flatten_of_mem among inside)
  · intro each p inside
    obtain ⟨piece, among, inPiece⟩ := List.mem_flatten.mp inside
    exact each piece among p inPiece

namespace Test

variable {tests later : List Test}

theorem ofPredicates_append (first : ofPredicates predicates = .ok tests)
    (second : ofPredicates others = .ok later) :
    ofPredicates (predicates ++ others) = .ok (tests ++ later) := by
  rw [ofPredicates] at first second ⊢
  rw [List.mapM_append, first, second]
  rfl

theorem ofPredicates_append_error {error : QueryError} (first : ofPredicates predicates = .ok tests)
    (second : ofPredicates others = .error error) :
    ofPredicates (predicates ++ others) = .error error := by
  rw [ofPredicates] at first second ⊢
  rw [List.mapM_append, first, second]
  rfl

theorem ofPredicates_error_append {error : QueryError}
    (first : ofPredicates predicates = .error error) (others : List Predicate) :
    ofPredicates (predicates ++ others) = .error error := by
  rw [ofPredicates] at first ⊢
  rw [List.mapM_append, first]
  rfl

end Test

namespace CallTable

variable {engine : Engine} {calls chosen fewer : List Call}

theorem select_fewer (more : ∀ call, engine.Satisfies others call → engine.Satisfies predicates call)
    (selected : select (some calls) predicates engine = .ok chosen)
    (selected' : select (some calls) others engine = .ok fewer) :
    fewer.Sublist chosen := by
  obtain ⟨_, tests, same, read, found⟩ := select_ok selected
  cases same
  obtain ⟨_, tests', same, read', found'⟩ := select_ok selected'
  cases same
  rw [Engine.select_ok found, Engine.select_ok found']
  refine List.monotone_filter_right calls fun call passed ↦ ?_
  rw [← Engine.satisfies_iff (Test.ofQuery_ok_iff.mp read').1] at passed
  rw [← Engine.satisfies_iff (Test.ofQuery_ok_iff.mp read).1]
  exact more call passed

end CallTable

end CallSearch
