import Mathlib.Order.MinMax
import CallSearch.Proofs.Outcome
import CallSearch.Store.Test

namespace CallSearch.Test

variable {tests : List Test} {predicates : List Predicate}

theorem depth_le (test : Test) : test.depth ≤ 8 := by
  have source (source : Source) : source.depth ≤ 5 := by
    unfold Source.depth
    split <;> split <;> decide
  cases test with
  | never => decide
  | compare s | isNull s | notNull s =>
    have := source s
    simp only [depth]
    omega
  | fits s =>
    have := source s
    simp only [depth]
    split <;> omega
  | isEmpty s =>
    have := source s
    simp only [depth]
    split <;> omega

theorem depth_pos (test : Test) : 0 < test.depth := by
  cases test with
  | never => decide
  | compare | isNull | notNull => exact Nat.succ_pos _
  | fits | isEmpty =>
    rw [depth]
    split <;> exact Nat.succ_pos _

theorem foldl_depth_le (rest : List Test) (depth : ℕ) :
    rest.foldl (fun depth other ↦ max depth other.depth + 1) depth ≤ max depth 8 + rest.length := by
  induction rest generalizing depth with
  | nil => exact le_max_left _ _
  | cons test rest ih =>
    have small := depth_le test
    have later := ih (max depth test.depth + 1)
    rw [List.foldl_cons, List.length_cons]
    omega

theorem le_foldl_depth (rest : List Test) (depth : ℕ) :
    depth + rest.length ≤ rest.foldl (fun depth other ↦ max depth other.depth + 1) depth := by
  induction rest generalizing depth with
  | nil => exact le_rfl
  | cons test rest ih =>
    have later := ih (max depth test.depth + 1)
    rw [List.foldl_cons, List.length_cons]
    omega

theorem depthOfAll_le (tests : List Test) : depthOfAll tests ≤ tests.length + 7 := by
  cases tests with
  | nil => exact Nat.zero_le _
  | cons test rest =>
    have small := depth_le test
    have most := foldl_depth_le rest test.depth
    rw [depthOfAll, List.length_cons]
    omega

theorem length_le_depthOfAll (tests : List Test) : tests.length ≤ depthOfAll tests := by
  cases tests with
  | nil => exact le_rfl
  | cons test rest =>
    have some := depth_pos test
    have least := le_foldl_depth rest test.depth
    rw [depthOfAll, List.length_cons]
    omega

theorem ofQuery_ok_iff :
    ofQuery predicates = .ok tests ↔ ofPredicates predicates = .ok tests ∧ areDeep tests = false := by
  unfold ofQuery
  cases ofPredicates predicates with
  | error e => simp [bind, Except.bind]
  | ok found =>
    cases deep : areDeep found <;> simp [bind, Except.bind, deep, pure, Except.pure, throw,
      throwThe, MonadExceptOf.throw]
    · rintro rfl
      exact deep
    · rintro rfl
      exact deep

theorem ofQuery_deep (translated : ofPredicates predicates = .ok tests) (deep : areDeep tests) :
    ofQuery predicates = .error .refused := by
  rw [ofQuery, translated]
  simp [bind, Except.bind, deep, throw, throwThe, MonadExceptOf.throw]

theorem areDeep_of_long (some : .never ∉ tests) (long : depthLimit < tests.length) :
    areDeep tests := by
  have least := length_le_depthOfAll tests
  rw [areDeep, decide_eq_true (long.trans_le least), Bool.and_true]
  simpa using some

/-- The store can read every query of at most 993 tests. -/
theorem ofQuery_of_short (translated : ofPredicates predicates = .ok tests)
    (short : tests.length ≤ 993) : ofQuery predicates = .ok tests := by
  refine ofQuery_ok_iff.mpr ⟨translated, ?_⟩
  have := depthOfAll_le tests
  rw [areDeep, decide_eq_false (by rw [depthLimit]; omega), Bool.and_false]

end CallSearch.Test
