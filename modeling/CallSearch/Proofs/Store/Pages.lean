import CallSearch.Proofs.Store.Match
import CallSearch.Proofs.Store.Order

namespace CallSearch

/-- Where the whole numbers end that the store can be given. -/
def Number.wordEnd : ℕ := 9223372036854775808

theorem Number.fits_natCast {n : ℕ} : (Number.int n).fits ↔ n < wordEnd := by
  simp only [fits, wordEnd, Bool.and_eq_true, decide_eq_true_eq]
  omega

open Number (wordEnd)

namespace Window

variable {α : Type} {offset limit : ℕ}

theorem of_limit (items : List α) (offset limit : ℕ) :
    (⟨offset, some limit⟩ : Window).of items = (items.drop offset).take limit := by
  simp [of]

theorem isBindable_iff :
    (⟨offset, some limit⟩ : Window).isBindable ↔ offset < wordEnd ∧ limit < wordEnd := by
  unfold isBindable
  rw [Bool.and_eq_true, Option.all_some, Number.fits_natCast, Number.fits_natCast]

end Window

namespace CallTable

variable {table : CallTable} {predicates : List Predicate} {order : SortOrder}
  {page chosen : List Call}

section Run

variable {size offset : ℤ} {bound : ℕ}

theorem pagesFrom_error {e : QueryError}
    (h : table.fetch predicates order ⟨offset, some size⟩ = .error e) :
    table.pagesFrom predicates order size (bound + 1) offset = .error e := by
  rw [pagesFrom, h]
  rfl

theorem pagesFrom_last (h : table.fetch predicates order ⟨offset, some size⟩ = .ok page)
    (short : page.length < size) :
    table.pagesFrom predicates order size (bound + 1) offset = .ok page := by
  rw [pagesFrom, h]
  simp only [bind, Except.bind, short, if_true]
  rfl

theorem pagesFrom_more (h : table.fetch predicates order ⟨offset, some size⟩ = .ok page)
    (full : ¬page.length < size) :
    table.pagesFrom predicates order size (bound + 1) offset =
      (table.pagesFrom predicates order size bound (offset + size)).map (page ++ ·) := by
  rw [pagesFrom, h]
  simp only [bind, Except.bind, full, if_false]
  cases table.pagesFrom predicates order size bound (offset + size) <;> rfl

end Run

section Selected

variable {offset limit size : ℕ} (selected : table.select predicates = .ok chosen)

include selected

theorem count_of_select : table.count predicates = .ok chosen.length := by
  rw [count, selected]
  rfl

theorem fetch_of_select (window : Window) :
    table.fetch predicates order window =
      if window.isBindable then .ok (window.of (order.list chosen))
      else .error .integerTooLarge := by
  obtain ⟨calls, tests, rfl, translated, found⟩ := select_ok selected
  rw [fetch, translated]
  change (if !window.isBindable then _ else _) = _
  cases window.isBindable with
  | false => rfl
  | true => exact congrArg (Except.map fun rows ↦ window.of (order.list rows)) found

theorem fetch_page (order : SortOrder) (hoffset : offset < wordEnd) (hlimit : limit < wordEnd) :
    table.fetch predicates order ⟨offset, some limit⟩ =
      .ok (((order.list chosen).drop offset).take limit) := by
  have bindable := Window.isBindable_iff.mpr ⟨hoffset, hlimit⟩
  rw [fetch_of_select selected, bindable, if_pos rfl, Window.of_limit]

theorem fetch_beyond (order : SortOrder) (beyond : ¬(offset < wordEnd ∧ limit < wordEnd)) :
    table.fetch predicates order ⟨offset, some limit⟩ = .error .integerTooLarge := by
  rw [fetch_of_select selected, if_neg (mt Window.isBindable_iff.mp beyond)]

/-- The run of pages from an offset on ends by itself with the first page that is not full. That page
begins at the last multiple of the size, which is the largest number that the store is given. -/
theorem pagesFrom_eq (order : SortOrder) (hsize : 1 ≤ size) {bound : ℕ}
    (enough : (chosen.length - offset) / size < bound) :
    table.pagesFrom predicates order size bound offset =
      if size < wordEnd ∧ offset + (chosen.length - offset) / size * size < wordEnd then
        .ok ((order.list chosen).drop offset)
      else .error .integerTooLarge := by
  induction bound generalizing offset with
  | zero => exact absurd enough (Nat.not_lt_zero _)
  | succ bound ih =>
    by_cases inside : offset < wordEnd ∧ size < wordEnd
    · have page := fetch_page selected order inside.1 inside.2
      have length : (((order.list chosen).drop offset).take size).length =
          min size (chosen.length - offset) := by simp
      by_cases last : chosen.length - offset < size
      · have none : (chosen.length - offset) / size = 0 := Nat.div_eq_of_lt last
        have rest : ((order.list chosen).drop offset).take size = (order.list chosen).drop offset :=
          List.take_of_length_le (by rw [List.length_drop, SortOrder.length_list]; omega)
        rw [pagesFrom_last page (by rw [length]; omega), rest, none, Nat.zero_mul, Nat.add_zero,
          if_pos ⟨inside.2, inside.1⟩]
      · have next : (chosen.length - offset) / size =
            (chosen.length - (offset + size)) / size + 1 := by
          rw [Nat.div_eq_sub_div (by omega) (by omega), Nat.sub_add_eq]
        have same : offset + size + (chosen.length - (offset + size)) / size * size =
            offset + (chosen.length - offset) / size * size := by
          rw [next, Nat.add_mul]
          omega
        have joined : ((order.list chosen).drop offset).take size ++
            (order.list chosen).drop (offset + size) = (order.list chosen).drop offset := by
          rw [← List.drop_drop, List.take_append_drop]
        rw [pagesFrom_more page (by rw [length]; omega), ← Int.natCast_add, ih (by omega), same]
        split
        · exact congrArg Except.ok joined
        · rfl
    · rw [pagesFrom_error (fetch_beyond selected order inside), if_neg]
      rintro ⟨hfits, hlast⟩
      exact inside ⟨by omega, hfits⟩

theorem fetchAll_eq (order : SortOrder) (hsize : 1 ≤ size) :
    table.fetchAll predicates order size =
      if size < wordEnd ∧ chosen.length / size * size < wordEnd then .ok (order.list chosen)
      else .error .integerTooLarge := by
  have fewer := (select_sublist selected).length_le
  have pages := Nat.div_le_self chosen.length size
  have enough : (chosen.length - 0) / size < (table.getD []).length + 1 := by
    rw [Nat.sub_zero]
    omega
  have run := pagesFrom_eq selected order hsize enough
  rwa [Nat.sub_zero, Nat.zero_add, List.drop_zero] at run

end Selected

theorem flatten_windows {α : Type} (rows : List α) (limit number : ℕ) :
    ((List.range number).map fun i ↦ (rows.drop (i * limit)).take limit).flatten =
      rows.take (number * limit) := by
  induction number with
  | zero => simp
  | succ number ih =>
    rw [List.range_succ, List.map_append, List.flatten_append, ih, Nat.succ_mul, List.take_add]
    simp

/-- Whether rows are what a query finds: the calls that match, each once, in the only arrangement
that agrees with the order. -/
structure Lists (table : CallTable) (predicates : List Predicate) (order : SortOrder)
    (rows : List Call) : Prop where
  ids : UniqueIds rows
  mem_iff : ∀ call, call ∈ rows ↔ call ∈ table.getD [] ∧ Matches predicates call
  sorted : rows.Pairwise fun a b ↦ order.precedes a b
  only : ∀ others : List Call, others.Perm rows →
    (others.Pairwise fun a b ↦ order.precedes a b) → others = rows

/-- Whether all questions to a table about a query are answered from the same rows. A run of pages
ends by itself, so that it makes no difference how many more pages it may have. -/
structure Serves (table : CallTable) (predicates : List Predicate) (order : SortOrder)
    (rows : List Call) : Prop where
  count : table.count predicates = .ok rows.length
  page : ∀ offset limit : ℕ, offset < wordEnd → limit < wordEnd →
    table.fetch predicates order ⟨offset, some limit⟩ = .ok ((rows.drop offset).take limit)
  pages : ∀ number limit : ℕ, 1 ≤ limit → limit < wordEnd → number * limit ≤ wordEnd →
    ((List.range number).mapM fun i ↦
        table.fetch predicates order ⟨(i * limit : ℕ), some limit⟩).map List.flatten =
      .ok (rows.take (number * limit))
  ends : ∀ size bound : ℕ, 1 ≤ size → rows.length / size < bound →
    table.pagesFrom predicates order size bound 0 = table.fetchAll predicates order size
  all : ∀ size : ℕ, 1 ≤ size →
    table.fetchAll predicates order size =
      if size < wordEnd ∧ rows.length / size * size < wordEnd then .ok rows
      else .error .integerTooLarge

theorem lists_of_select (ids : UniqueIds (table.getD []))
    (selected : table.select predicates = .ok chosen) (order : SortOrder) :
    table.Lists predicates order (order.list chosen) where
  ids := by
    have perm := (order.list_perm chosen).map Call.id
    exact perm.nodup_iff.mpr (ids.sublist (select_sublist selected))
  mem_iff call := by rw [(order.list_perm chosen).mem_iff, mem_select_iff selected]
  sorted := order.list_sorted chosen
  only others perm sorted :=
    SortOrder.eq_list (ids.sublist (select_sublist selected))
      (perm.trans (order.list_perm chosen)) sorted

theorem serves_of_select (selected : table.select predicates = .ok chosen) (order : SortOrder) :
    table.Serves predicates order (order.list chosen) where
  count := by rw [count_of_select selected, SortOrder.length_list]
  page _ _ := fetch_page selected order
  pages := by
    intro number limit hlimit hfits hnumber
    have page (i : ℕ) (hi : i ∈ List.range number) :
        table.fetch predicates order ⟨(i * limit : ℕ), some limit⟩ =
          .ok (((order.list chosen).drop (i * limit)).take limit) := by
      have before : (i + 1) * limit ≤ number * limit :=
        Nat.mul_le_mul_right limit (List.mem_range.mp hi)
      rw [Nat.succ_mul] at before
      exact fetch_page selected order (by omega) hfits
    rw [mapM_ok page]
    exact congrArg Except.ok (flatten_windows _ limit number)
  ends := by
    intro size bound hsize enough
    rw [SortOrder.length_list] at enough
    have enough : (chosen.length - 0) / size < bound := by rwa [Nat.sub_zero]
    have run := pagesFrom_eq selected order hsize enough
    rw [Nat.sub_zero, Nat.zero_add, List.drop_zero] at run
    exact run.trans (fetchAll_eq selected order hsize).symm
  all size hsize := by rw [fetchAll_eq selected order hsize, SortOrder.length_list]

/-- For every query that the store accepts, in every order, there is one list of the calls that match,
and all pages, the count and the run of all pages are taken from it. The run of pages fails exactly
if it would have to ask the store with a number that does not fit into 64 bits. -/
theorem one_listing (stored : table.Stored) (accepted : table.Accepts predicates)
    (order : SortOrder) :
    ∃ rows, table.Lists predicates order rows ∧ table.Serves predicates order rows := by
  obtain ⟨chosen, selected⟩ := accepts_iff.mp accepted
  exact ⟨order.list chosen, lists_of_select stored.uniqueIds selected order,
    serves_of_select selected order⟩

def untimedRecords : List Json := List.replicate 3 (.obj [("agent_id", .str "a")])

theorem one_listing_untimed :
    ∃ table : CallTable, table.Stored ∧ table.Accepts [] ∧
      ∃ rows, rows.length = 3 ∧ table.Lists [] {} rows ∧
        table.fetch [] {} ⟨2, some 2⟩ = .ok (rows.drop 2) ∧ table.fetchAll [] {} 3 = .ok rows := by
  obtain ⟨table, inserted, counted⟩ : ∃ table,
      insertRecords (.startOf default) (some []) untimedRecords = .ok table ∧
        table.count [] = .ok 3 := ⟨_, rfl, rfl⟩
  have stored : table.Stored := .insert .empty inserted
  obtain ⟨chosen, selected, -⟩ := ok_map_iff.mp counted
  have accepted : table.Accepts [] := accepts_iff.mpr ⟨chosen, selected⟩
  obtain ⟨rows, lists, serves⟩ := one_listing stored accepted {}
  have length : rows.length = 3 := Except.ok.inj (serves.count.symm.trans counted)
  have page := serves.page 2 2 (by decide) (by decide)
  have all := serves.all 3 (by decide)
  rw [List.take_of_length_le (by simp [length])] at page
  rw [length, if_pos (by decide)] at all
  exact ⟨table, stored, accepted, rows, length, lists, page, all⟩

/-- Pages of a size that does not fit into 64 bits cannot be asked for, even of an empty table. -/
theorem fetchAll_beyond_words :
    Stored (some []) ∧ Accepts (some []) [] ∧
      ∀ rows, CallTable.fetchAll (some []) [] {} 9223372036854775808 ≠ .ok rows := by
  have selected : CallTable.select (some []) [] = .ok [] := rfl
  refine ⟨.empty, accepts_iff.mpr ⟨[], selected⟩, ?_⟩
  intro rows all
  have large : 1 ≤ wordEnd := by decide
  have refused := fetchAll_eq selected {} large
  rw [if_neg (by decide)] at refused
  cases refused.symm.trans all

end CallTable

end CallSearch
