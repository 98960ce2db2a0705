import Mathlib.Algebra.Group.Nat.Even
import Mathlib.Data.List.DropRight
import CallSearch.Proofs.Paging.Run

namespace CallSearch

namespace SortOrder

variable {order start : SortOrder} {column : String} {clicks : List String}

theorem clicked_other (other : column ∉ sortable) : order.clicked column = order := by
  simp [clicked, other]

theorem clicked_sortable (among : column ∈ sortable) :
    order.clicked column = ⟨column, column == order.column && !order.ascending⟩ := by
  unfold clicked
  rw [List.contains_iff_mem.mpr among]
  cases same : column == order.column <;> simp

theorem clicked_ne (among : column ∈ sortable) : order.clicked column ≠ order := by
  rw [clicked_sortable among]
  intro same
  have direction := congrArg ascending same
  obtain rfl : column = order.column := congrArg SortOrder.column same
  simp at direction

theorem column_foldl_clicked (start : SortOrder) (among : ∀ column ∈ clicks, column ∈ sortable) :
    (clicks.foldl clicked start).column = clicks.getLast?.getD start.column := by
  induction clicks using List.reverseRecOn with
  | nil => rfl
  | append_singleton clicks column ih =>
    rw [List.foldl_concat, clicked_sortable (among column (by simp)), List.getLast?_concat]
    rfl

/-- The longest run of clicks at the end that are all on one column. -/
def lastRun (clicks : List String) (column : String) : List String :=
  clicks.rtakeWhile (· == column)

theorem lastRun_concat (clicks : List String) (column : String) :
    lastRun (clicks ++ [column]) column = lastRun clicks column ++ [column] :=
  List.rtakeWhile_concat_pos _ _ _ (beq_self_eq_true column)

theorem lastRun_eq_nil (other : clicks.getLast? ≠ some column) : lastRun clicks column = [] := by
  rw [lastRun, List.rtakeWhile_eq_nil_iff]
  intro any same
  rw [beq_iff_eq] at same
  exact other (same ▸ List.getLast?_eq_some_getLast any)

/-- The direction of a column after clicks that end with it: it turns round with each click of the
last run, and unless this run began from the start, the first click of the run made it descending. -/
def directionAfter (start : SortOrder) (clicks : List String) (column : String) : Bool :=
  if lastRun clicks column = clicks ∧ start.column = column then
    not^[(lastRun clicks column).length] start.ascending
  else decide (Even (lastRun clicks column).length)

theorem directionAfter_concat (start : SortOrder) (clicks : List String) (column : String) :
    directionAfter start (clicks ++ [column]) column = !directionAfter start clicks column := by
  simp only [directionAfter, lastRun_concat, List.append_left_inj, List.length_append,
    List.length_singleton, Function.iterate_succ_apply']
  split
  · rfl
  · rw [← decide_not, decide_eq_decide]
    exact Nat.even_add_one

theorem directionAfter_other (other : clicks.getLast?.getD start.column ≠ column) :
    directionAfter start clicks column = true := by
  have fresh : lastRun clicks column = [] := by
    refine lastRun_eq_nil fun last ↦ other ?_
    rw [last]
    rfl
  unfold directionAfter
  rw [fresh, if_neg]
  · rfl
  · rintro ⟨rfl, same⟩
    exact other same

/-- The direction after several clicks is that of the last run on the column clicked last. -/
theorem ascending_foldl_clicked (start : SortOrder) (among : ∀ column ∈ clicks, column ∈ sortable) :
    (clicks.foldl clicked start).ascending =
      directionAfter start clicks (clicks.foldl clicked start).column := by
  induction clicks using List.reverseRecOn with
  | nil => simp [directionAfter, lastRun]
  | append_singleton clicks column ih =>
    rw [List.forall_mem_append] at among
    have before := ih among.1
    rw [List.foldl_concat, clicked_sortable (among.2 column List.mem_cons_self),
      directionAfter_concat]
    by_cases same : column = (clicks.foldl clicked start).column
    · rw [← same] at before
      simp [← same, before]
    · rw [column_foldl_clicked start among.1] at same
      have other := directionAfter_other (Ne.symm same)
      simp [column_foldl_clicked start among.1, same, other]

end SortOrder

namespace PagerEvent

variable {ρ : Type}

/-- The column that an event clicks on, if rows can be sorted by it. -/
def click? : PagerEvent ρ → Option String
  | .toggle column => if SortOrder.sortable.contains column then some column else none
  | _ => none

/-- Whether an event leaves the query to clicks on headers. -/
def ByClick (event : PagerEvent ρ) : Prop :=
  event.isChange = true → ∃ column, event = .toggle column

def clicks (events : List (PagerEvent ρ)) : List String := events.filterMap click?

end PagerEvent

namespace Pager

open PagerEvent SortOrder

variable {ρ : Type} {c : Pager ρ} {event : PagerEvent ρ} {events : List (PagerEvent ρ)}
  {order : SortOrder}

theorem Happens.same_query {after : Pager ρ × Progress ρ} (move : c.Happens event after)
    (still : event.isChange = false) :
    after.1.order = c.order ∧ after.1.generation = c.generation := by
  cases move with
  | begins | joins | rests | declines | ignores | drops => exact ⟨rfl, rfl⟩
  | takes f outcome => cases outcome <;> exact ⟨rfl, rfl⟩
  | keeps about | renews about => simp [about] at still

theorem setOrder_self (c : Pager ρ) : (c.setOrder c.order).1 = c := by
  simp [setOrder, change]

theorem setOrder_other (other : order ≠ c.order) :
    (c.setOrder order).1 = ({ c with order } : Pager ρ).reset := by
  simp [setOrder, change, other]

theorem step_click (c : Pager ρ) (byClick : event.ByClick) :
    (c.step event).1.order = event.click?.toList.foldl clicked c.order ∧
      (c.step event).1.generation = c.generation + event.click?.toList.length := by
  by_cases still : event.isChange = false
  · have none : event.click? = none := by cases event <;> first | rfl | cases still
    rw [none]
    exact (c.happens event).same_query still
  · obtain ⟨column, rfl⟩ := byClick (Bool.not_eq_false _ ▸ still)
    by_cases among : column ∈ sortable
    · have click : (PagerEvent.toggle column : PagerEvent ρ).click? = some column := by
        simp [click?, among]
      rw [click, step, setOrder_other (clicked_ne among)]
      exact ⟨rfl, rfl⟩
    · have click : (PagerEvent.toggle column : PagerEvent ρ).click? = none := by
        simp [click?, among]
      rw [click, step, clicked_other among, setOrder_self]
      exact ⟨rfl, rfl⟩

theorem run_clicks (c : Pager ρ) (byClicks : ∀ event ∈ events, event.ByClick) :
    (c.run events).order = (clicks events).foldl clicked c.order ∧
      (c.run events).generation = c.generation + (clicks events).length := by
  induction events generalizing c with
  | nil => exact ⟨rfl, rfl⟩
  | cons event rest ih =>
    rw [List.forall_mem_cons] at byClicks
    obtain ⟨order, generation⟩ := c.step_click byClicks.1
    obtain ⟨lastOrder, lastGeneration⟩ := ih (c.step event).1 byClicks.2
    have parts : clicks (event :: rest) = event.click?.toList ++ clicks rest := by
      rw [clicks, List.filterMap_cons]
      cases event.click? <;> rfl
    rw [run, List.foldl_cons, ← run, parts, List.foldl_append, List.length_append, lastOrder, order,
      lastGeneration, generation, Nat.add_assoc]
    exact ⟨rfl, rfl⟩

theorem sortable_of_mem_clicks {column : String} (inside : column ∈ clicks events) :
    column ∈ sortable := by
  obtain ⟨event, -, click⟩ := List.mem_filterMap.mp inside
  cases event with
  | toggle other =>
    obtain ⟨among, rfl⟩ : other ∈ sortable ∧ other = column := by simpa [click?] using click
    exact among
  | _ => cases click

/-- Where only clicks on headers change the query, the number of the generation counts the clicks on
sortable columns. The order is by the last of them, and its direction follows from the run of clicks
on it at the end; without such clicks the order stays as it was. -/
theorem clicked_run (c : Pager ρ) (byClicks : ∀ event ∈ events, event.ByClick) :
    (c.run events).generation = c.generation + (clicks events).length ∧
      (clicks events = [] → (c.run events).order = c.order) ∧
      ∀ column, (clicks events).getLast? = some column →
        (c.run events).order = ⟨column, directionAfter c.order (clicks events) column⟩ := by
  obtain ⟨order, generation⟩ := c.run_clicks byClicks
  have among : ∀ column ∈ clicks events, column ∈ sortable := fun _ ↦ sortable_of_mem_clicks
  refine ⟨generation, fun none ↦ ?_, fun column last ↦ ?_⟩
  · rw [order, none]
    rfl
  · have target := column_foldl_clicked c.order among
    have direction := ascending_foldl_clicked c.order among
    rw [last, Option.getD_some] at target
    rw [target] at direction
    rw [order, ← direction, ← target]

def headerClicks : List (PagerEvent Nat) :=
  [.toggle "call_started_at", .load, .toggle "agent_id", .toggle "total_cost",
   .answer 0 (.ok [1, 2]), .toggle "total_cost"]

theorem clicked_run_header :
    (∀ event ∈ headerClicks, event.ByClick) ∧ (ofPairs.run headerClicks).generation = 3 ∧
      (ofPairs.run headerClicks).order = ⟨"total_cost", true⟩ := by
  have byClicks : ∀ event ∈ headerClicks, event.ByClick := by
    simp [headerClicks, ByClick, isChange]
  have among : clicks headerClicks = ["call_started_at", "total_cost", "total_cost"] := by decide
  obtain ⟨generation, -, order⟩ := ofPairs.clicked_run byClicks
  rw [among] at generation order
  exact ⟨byClicks, generation, order "total_cost" rfl⟩

end Pager

end CallSearch
