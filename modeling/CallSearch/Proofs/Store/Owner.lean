import CallSearch.Proofs.Store.Depth
import CallSearch.Proofs.Store.Order
import CallSearch.Proofs.Store.Selection

namespace CallSearch

namespace Window

variable {α : Type} (window : Window) (items : List α)

theorem of_sublist : (window.of items).Sublist items := by
  have rest := List.drop_sublist window.offset.toNat items
  simp only [of]
  split
  · split
    · exact rest
    · exact (List.take_sublist _ _).trans rest
  · exact rest

theorem length_of_le : (window.of items).length ≤ items.length - window.offset.toNat := by
  simp only [of]
  split
  · split <;> simp
  · simp

end Window

namespace CallTable

def own (agent : String) (table : CallTable) : CallTable :=
  table.map (List.filter (·.agent == agent))

/-- Two tables with the same calls, each with an id of its own, in any order. -/
inductive Rearranged : CallTable → CallTable → Prop
  | lost : Rearranged none none
  | kept {calls others : List Call} (ids : UniqueIds calls)
      (same : calls.Perm others) : Rearranged (some calls) (some others)

variable {first second table : CallTable} {agent : String} {predicates : List Predicate}

section Own

theorem ofAgent_own : (table.own agent).ofAgent agent = table.ofAgent agent := by
  cases table with
  | none => rfl
  | some calls => simp [own, ofAgent, List.filter_filter]

theorem sample_own (limit : Option Int) :
    (table.own agent).sample agent limit = table.sample agent limit := by
  rw [sample, sample, ofAgent_own]

theorem signalCalls_own (now : Timestamp) (days : Option Int) :
    (table.own agent).signalCalls now agent days = table.signalCalls now agent days := by
  simp only [signalCalls, ofAgent_own]

theorem ofQuery_owner {tests : List Test}
    (read : Test.ofQuery (Predicate.owner agent :: predicates) = .ok tests) :
    ∃ rest, tests = Test.owner agent :: rest := by
  have translated := (Test.ofQuery_ok_iff.mp read).1
  rw [Test.ofPredicates_owner] at translated
  obtain ⟨rest, -, same⟩ := ok_map_iff.mp translated
  exact ⟨rest, same.symm⟩

/-- The owner is asked for first, so that a query for an agent never comes to the calls of others. -/
theorem count_owner : (table.own agent).count (Predicate.owner agent :: predicates) =
    table.count (Predicate.owner agent :: predicates) := by
  rw [count, count, select, select]
  cases read : Test.ofQuery (Predicate.owner agent :: predicates) with
  | error e => rfl
  | ok tests =>
    obtain ⟨rest, rfl⟩ := ofQuery_owner read
    cases table with
    | none => rfl
    | some calls =>
      exact congrArg (Except.map List.length) (Engine.select_owner agent rest calls).symm

theorem fetch_owner (order : SortOrder) (window : Window) :
    (table.own agent).fetch (Predicate.owner agent :: predicates) order window =
      table.fetch (Predicate.owner agent :: predicates) order window := by
  rw [fetch, fetch]
  cases read : Test.ofQuery (Predicate.owner agent :: predicates) with
  | error e => rfl
  | ok tests =>
    obtain ⟨rest, rfl⟩ := ofQuery_owner read
    cases table with
    | none => rfl
    | some calls =>
      simp only [own, Option.map_some, bind, Except.bind, ← Engine.select_owner]

theorem fetch_ok {order : SortOrder} {window : Window} {rows : List Call}
    (h : table.fetch predicates order window = .ok rows) :
    ∃ chosen : List Call, chosen.Sublist (table.getD []) ∧ rows = window.of (order.list chosen) := by
  rw [fetch] at h
  obtain ⟨tests, -, h⟩ := ok_of_bind h
  cases table with
  | none => cases h
  | some calls =>
    cases fits : window.isBindable with
    | false =>
      simp only [fits] at h
      cases h
    | true =>
      simp only [fits] at h
      obtain ⟨chosen, selected, h⟩ := ok_of_bind h
      cases h
      exact ⟨chosen, Engine.select_sublist selected, rfl⟩

theorem mem_of_fetch {order : SortOrder} {window : Window} {rows : List Call}
    (h : table.fetch predicates order window = .ok rows) {call : Call} (hcall : call ∈ rows) :
    call ∈ table.getD [] := by
  obtain ⟨chosen, sub, rfl⟩ := fetch_ok h
  exact sub.subset ((order.list_perm chosen).subset ((window.of_sublist _).subset hcall))

theorem length_of_fetch {order : SortOrder} {window : Window} {rows : List Call}
    (h : table.fetch predicates order window = .ok rows) :
    rows.length ≤ (table.getD []).length - window.offset.toNat := by
  obtain ⟨chosen, sub, rfl⟩ := fetch_ok h
  have hpage := window.length_of_le (order.list chosen)
  have hchosen := sub.length_le
  rw [SortOrder.length_list] at hpage
  omega

theorem pagesFrom_of_lt {order : SortOrder} {size offset : Int} {fuel more : Nat} (hsize : 0 < size)
    (hoffset : 0 ≤ offset) (enough : (table.getD []).length - offset.toNat < fuel)
    (hmore : fuel ≤ more) :
    table.pagesFrom predicates order size more offset =
      table.pagesFrom predicates order size fuel offset := by
  induction fuel generalizing more offset with
  | zero => omega
  | succ fuel ih =>
    obtain ⟨more, rfl⟩ : ∃ n, more = n + 1 := ⟨more - 1, by omega⟩
    simp only [pagesFrom]
    cases page : table.fetch predicates order ⟨offset, some size⟩ with
    | error e => rfl
    | ok rows =>
      have hrows := length_of_fetch page
      by_cases last : (rows.length : Int) < size
      · simp only [bind, Except.bind, last, if_true]
      · simp only [bind, Except.bind, last, if_false]
        rw [ih (by omega) (by simp only at hrows; omega) (by omega)]

theorem pagesFrom_owner (order : SortOrder) (size : Int) (fuel : Nat) (offset : Int) :
    (table.own agent).pagesFrom (Predicate.owner agent :: predicates) order size fuel offset =
      table.pagesFrom (Predicate.owner agent :: predicates) order size fuel offset := by
  induction fuel generalizing offset with
  | zero => rfl
  | succ fuel ih => simp only [pagesFrom, fetch_owner, ih]

theorem mem_of_pagesFrom {order : SortOrder} {size offset : Int} {fuel : Nat} {rows : List Call}
    (h : table.pagesFrom predicates order size fuel offset = .ok rows) {call : Call}
    (hcall : call ∈ rows) : call ∈ table.getD [] := by
  induction fuel generalizing offset rows with
  | zero =>
    cases h
    cases hcall
  | succ fuel ih =>
    rw [pagesFrom] at h
    obtain ⟨first, page, h⟩ := ok_of_bind h
    split at h
    · cases h
      exact mem_of_fetch page hcall
    · obtain ⟨rest, later, h⟩ := ok_of_bind h
      cases h
      rcases List.mem_append.mp hcall with hfirst | hrest
      · exact mem_of_fetch page hfirst
      · exact ih later hrest

theorem fetchAll_owner {order : SortOrder} {size : Int} (hsize : 0 < size) :
    (table.own agent).fetchAll (Predicate.owner agent :: predicates) order size =
      table.fetchAll (Predicate.owner agent :: predicates) order size := by
  have fewer : ((table.own agent).getD []).length ≤ (table.getD []).length := by
    cases table with
    | none => exact le_rfl
    | some calls => exact List.length_filter_le _ _
  rw [fetchAll, fetchAll, ← @pagesFrom_owner table]
  exact (pagesFrom_of_lt hsize le_rfl (by simp) (by omega)).symm

theorem agent_of_mem_own {call : Call} (h : call ∈ (table.own agent).getD []) :
    call.agent = agent := by
  cases table with
  | none => cases h
  | some calls => exact eq_of_beq (List.mem_filter.mp h).2

end Own

section Rearranged

theorem Rearranged.count (h : first.Rearranged second) (predicates : List Predicate) :
    first.count predicates = second.count predicates := by
  rw [CallTable.count, CallTable.count, select, select]
  cases h with
  | lost => rfl
  | kept ids same =>
    cases Test.ofQuery predicates with
    | error e => rfl
    | ok tests =>
      exact Engine.select_congr same List.length (fun p ↦ (same.filter p).length_eq) tests

theorem Rearranged.fetch (h : first.Rearranged second) (predicates : List Predicate)
    (order : SortOrder) (window : Window) :
    first.fetch predicates order window = second.fetch predicates order window := by
  rw [CallTable.fetch, CallTable.fetch]
  cases h with
  | lost => rfl
  | @kept calls others ids same =>
    cases Test.ofQuery predicates with
    | error e => rfl
    | ok tests =>
      have rows : (Engine.inOrder.select tests calls).map (fun rows ↦ window.of (order.list rows)) =
          (Engine.inOrder.select tests others).map (fun rows ↦ window.of (order.list rows)) := by
        refine Engine.select_congr same _ (fun p ↦ ?_) tests
        rw [order.list_congr (ids.sublist List.filter_sublist) (same.filter p)]
      cases fits : window.isBindable with
      | false => rfl
      | true => simpa [fits, bind, Except.bind, pure, Except.pure, Except.map] using rows

theorem Rearranged.pagesFrom (h : first.Rearranged second) (predicates : List Predicate)
    (order : SortOrder) (size : Int) (fuel : Nat) (offset : Int) :
    first.pagesFrom predicates order size fuel offset =
      second.pagesFrom predicates order size fuel offset := by
  induction fuel generalizing offset with
  | zero => rfl
  | succ fuel ih => simp only [CallTable.pagesFrom, h.fetch, ih]

theorem Rearranged.fetchAll (h : first.Rearranged second) (predicates : List Predicate)
    (order : SortOrder) (size : Int) :
    first.fetchAll predicates order size = second.fetchAll predicates order size := by
  have length : (first.getD []).length = (second.getD []).length := by
    cases h with
    | lost => rfl
    | kept ids same => exact same.length_eq
  rw [CallTable.fetchAll, CallTable.fetchAll, h.pagesFrom, length]

theorem Rearranged.sample (h : first.Rearranged second) (agent : String) (limit : Option Int) :
    first.sample agent limit = second.sample agent limit := by
  cases h with
  | lost => rfl
  | kept ids same =>
    have listing := SortOrder.list_congr { column := "created_at" }
      (ids.sublist List.filter_sublist) (same.filter (·.agent == agent))
    simp only [CallTable.sample, CallTable.ofAgent, bind, Except.bind, listing]

theorem Rearranged.signalCalls (h : first.Rearranged second) (now : Timestamp) (agent : String)
    (days : Option Int) :
    first.signalCalls now agent days = second.signalCalls now agent days := by
  cases h with
  | lost => rfl
  | kept ids same =>
    have listing (p q : Call → Bool) := SortOrder.list_congr { column := "id", ascending := true }
      (ids.sublist (List.filter_sublist.trans List.filter_sublist))
      ((same.filter p).filter q)
    simp only [CallTable.signalCalls, CallTable.ofAgent, Except.mapError, bind, Except.bind, listing]

end Rearranged

/-- Two tables with the same calls of an agent, whatever other calls they have. -/
def AgreeOn (agent : String) (first second : CallTable) : Prop :=
  (first.own agent).Rearranged (second.own agent)

theorem agreeOn_of_perm {calls others : List Call} (ids : UniqueIds calls)
    (same : (calls.filter (·.agent == agent)).Perm (others.filter (·.agent == agent))) :
    AgreeOn agent (some calls) (some others) :=
  .kept (ids.sublist List.filter_sublist) same

section AgreeOn

theorem AgreeOn.sample (h : AgreeOn agent first second) (limit : Option Int) :
    first.sample agent limit = second.sample agent limit := by
  rw [← first.sample_own, ← second.sample_own]
  exact Rearranged.sample h agent limit

theorem AgreeOn.signalCalls (h : AgreeOn agent first second) (now : Timestamp)
    (days : Option Int) :
    first.signalCalls now agent days = second.signalCalls now agent days := by
  rw [← first.signalCalls_own, ← second.signalCalls_own]
  exact Rearranged.signalCalls h now agent days

/-- Two tables answer a query alike, and only with calls of an agent. The bound on the number of
pages is part of what they agree on, so that endless runs of pages are alike, too. -/
structure AnswerAlike (agent : String) (predicates : List Predicate)
    (first second : CallTable) : Prop where
  count : first.count predicates = second.count predicates
  page : ∀ order window,
    first.fetch predicates order window = second.fetch predicates order window
  pages : ∀ order size bound offset,
    first.pagesFrom predicates order size bound offset =
      second.pagesFrom predicates order size bound offset
  all : ∀ order size, 0 < size →
    first.fetchAll predicates order size = second.fetchAll predicates order size
  page_own : ∀ order window rows, first.fetch predicates order window = .ok rows →
    ∀ call ∈ rows, call.agent = agent
  pages_own : ∀ order size bound offset rows,
    first.pagesFrom predicates order size bound offset = .ok rows →
      ∀ call ∈ rows, call.agent = agent

theorem AgreeOn.answerAlike (h : AgreeOn agent first second) (predicates : List Predicate) :
    AnswerAlike agent (Predicate.owner agent :: predicates) first second where
  count := by
    rw [← @count_owner first, ← @count_owner second]
    exact Rearranged.count h _
  page := by
    intro order window
    rw [← @fetch_owner first, ← @fetch_owner second]
    exact Rearranged.fetch h _ order window
  pages := by
    intro order size bound offset
    rw [← @pagesFrom_owner first, ← @pagesFrom_owner second]
    exact Rearranged.pagesFrom h _ order size bound offset
  all := by
    intro order size hsize
    rw [← @fetchAll_owner first _ _ _ _ hsize, ← @fetchAll_owner second _ _ _ _ hsize]
    exact Rearranged.fetchAll h _ order size
  page_own := by
    intro order window rows page call hcall
    rw [← fetch_owner] at page
    exact agent_of_mem_own (mem_of_fetch page hcall)
  pages_own := by
    intro order size bound offset rows pages call hcall
    rw [← pagesFrom_owner] at pages
    exact agent_of_mem_own (mem_of_pagesFrom pages hcall)

end AgreeOn

end CallTable

end CallSearch
