import CallSearch.Proofs.Store.Pages

namespace CallSearch

namespace SortOrder

def turned (order : SortOrder) : SortOrder := { order with ascending := !order.ascending }

variable {order : SortOrder} {calls : List Call}

theorem target_turned (order : SortOrder) : order.turned.target = order.target := rfl

theorem precedes_turned (order : SortOrder) (a b : Call) :
    order.turned.precedes a b = order.precedes b a := by
  rw [precedes, precedes, target_turned, turned]
  cases order.ascending <;> rfl

theorem list_turned (ids : UniqueIds calls) (order : SortOrder) :
    order.turned.list calls = (order.list calls).reverse := by
  have perm : (order.list calls).reverse.Perm calls :=
    (List.reverse_perm _).trans (list_perm order calls)
  have sorted : (order.list calls).reverse.Pairwise fun a b ↦ order.turned.precedes a b := by
    rw [List.pairwise_reverse]
    refine (list_sorted order calls).imp fun {a b} before ↦ ?_
    rw [precedes_turned]
    exact before
  exact (eq_list ids perm sorted).symm

end SortOrder

namespace CallTable

variable {table : CallTable} {predicates : List Predicate}

/-- For every query that the store accepts and every column, known or not, the rows of the
descending listing are those of the ascending one from the last to the first, in all pages, in the
run of all pages and in one answer without a limit. -/
theorem listing_reversed (stored : table.Stored) (accepted : table.Accepts predicates)
    (column : String) :
    ∃ rows, table.Lists predicates ⟨column, true⟩ rows ∧
      table.Lists predicates ⟨column, false⟩ rows.reverse ∧
      table.Serves predicates ⟨column, true⟩ rows ∧
      table.Serves predicates ⟨column, false⟩ rows.reverse ∧
      table.fetch predicates ⟨column, true⟩ ⟨0, none⟩ = .ok rows ∧
      table.fetch predicates ⟨column, false⟩ ⟨0, none⟩ = .ok rows.reverse := by
  obtain ⟨chosen, selected⟩ := accepts_iff.mp accepted
  have ids := stored.uniqueIds.sublist (select_sublist selected)
  have turned := SortOrder.list_turned ids ⟨column, true⟩
  change (⟨column, false⟩ : SortOrder).list chosen = _ at turned
  refine ⟨(⟨column, true⟩ : SortOrder).list chosen, ?_⟩
  rw [← turned]
  exact ⟨lists_of_select stored.uniqueIds selected _, lists_of_select stored.uniqueIds selected _,
    serves_of_select selected _, serves_of_select selected _,
    fetch_of_select selected _, fetch_of_select selected _⟩

def tiedRecords : List Json :=
  [.obj [("agent_id", .str "a"), ("call_ended_reason", .str "done")],
   .obj [("agent_id", .str "a")],
   .obj [("agent_id", .str "a"), ("call_ended_reason", .str "done")]]

theorem listing_reversed_tied :
    ∃ table : CallTable, table.Stored ∧ table.Accepts [] ∧
      ∃ rows, rows.map Call.id = [2, 1, 3] ∧
        table.fetchAll [] ⟨"call_ended_reason", true⟩ 2 = .ok rows ∧
        table.fetchAll [] ⟨"call_ended_reason", false⟩ 2 = .ok rows.reverse := by
  let order : SortOrder := ⟨"call_ended_reason", true⟩
  obtain ⟨a, b, c, inserted, number, ordered⟩ : ∃ a b c,
      insertRecords (.startOf default) (some []) tiedRecords = .ok (some [a, b, c]) ∧
        [b, a, c].map Call.id = [2, 1, 3] ∧
        order.precedes b a ∧ order.precedes b c ∧ order.precedes a c :=
    ⟨_, _, _, rfl, rfl, rfl, rfl, rfl⟩
  have stored : Stored (some [a, b, c]) := .insert .empty inserted
  have selected : select (some [a, b, c]) [] = .ok [a, b, c] := rfl
  have accepted : Accepts (some [a, b, c]) [] := accepts_iff.mpr ⟨_, selected⟩
  obtain ⟨rows, -, -, up, down, whole, -⟩ := listing_reversed stored accepted order.column
  have sorted : [b, a, c].Pairwise fun x y ↦ order.precedes x y := by
    simpa [and_assoc] using ordered
  obtain rfl : [b, a, c] = rows := by
    rw [SortOrder.eq_list stored.uniqueIds (.swap a b [c]) sorted]
    exact Except.ok.inj ((fetch_of_select selected ⟨0, none⟩).symm.trans whole)
  have small : 2 < Number.wordEnd ∧ 3 / 2 * 2 < Number.wordEnd := by decide
  exact ⟨_, stored, accepted, [b, a, c], number, (up.all 2 (by decide)).trans (if_pos small),
    (down.all 2 (by decide)).trans (if_pos small)⟩

end CallTable

end CallSearch
