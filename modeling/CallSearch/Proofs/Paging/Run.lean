import CallSearch.Paging.Event
import Mathlib.Data.List.Nodup

namespace CallSearch

def PagerEvent.isChange {ρ : Type} : PagerEvent ρ → Bool
  | .setPredicates _ | .setOrder _ | .toggle _ | .reset => true
  | _ => false

namespace Pager

variable {ρ : Type}

def run (c : Pager ρ) (events : List (PagerEvent ρ)) : Pager ρ :=
  events.foldl (fun c event ↦ (c.step event).1) c

/-- What an event can do to a pager, with what has to be the case for it. -/
inductive Happens (c : Pager ρ) : PagerEvent ρ → Pager ρ × Progress ρ → Prop
  | begins {event : PagerEvent ρ} (caller : Caller)
      (asks : event = .load ∧ caller = .load ∨
        event = .sentinel true ∧ caller = .sentinel ∧ c.error = none)
      (free : c.loading = none) (more : c.hasMore = true) :
      Happens c event (c.beginFetch caller)
  | joins (fetch : Nat) (busy : c.loading = some fetch) :
      Happens c .load
        ({ c with
            taskCount := c.taskCount + 1
            waiters := c.waiters ++ [⟨c.taskCount, fetch, .load⟩] }, {})
  | rests (free : c.loading = none) (last : c.hasMore = false) :
      Happens c .load (c.finishAtOnce (.rows []))
  | declines (visible : Bool)
      (idle : (visible && c.hasMore && c.loading.isNone && c.error.isNone) = false) :
      Happens c (.sentinel visible) (c.finishAtOnce (.requested false))
  | ignores (fetch : Nat) (outcome : Except FetchFailure (List ρ))
      (unknown : ∀ f ∈ c.openFetches, f.number ≠ fetch) :
      Happens c (.answer fetch outcome) (c, {})
  | drops (f : OpenFetch) (outcome : Except FetchFailure (List ρ))
      (isOpen : f ∈ c.openFetches) (stale : f.generation ≠ c.generation) :
      Happens c (.answer f.number outcome) (c.close f.number (.ok []))
  | takes (f : OpenFetch) (outcome : Except FetchFailure (List ρ))
      (isOpen : f ∈ c.openFetches) (current : f.generation = c.generation) :
      Happens c (.answer f.number outcome)
        ((c.takeIn (outcome.mapError (·.toError f.request.offset))).close f.number
          (outcome.mapError (·.toError f.request.offset)))
  | keeps {event : PagerEvent ρ} (about : event.isChange = true) (changed : Option Bool) :
      Happens c event (c, { changed })
  | renews {event : PagerEvent ρ} (about : event.isChange = true) (predicates : List Predicate)
      (order : SortOrder) (changed : Option Bool) :
      Happens c event (({ c with predicates, order } : Pager ρ).reset, { changed })

theorem happens_load (c : Pager ρ) : Happens c .load c.load := by
  unfold load
  split
  · rename_i fetch busy
    exact .joins fetch busy
  · rename_i free
    cases more : c.hasMore
    · exact .rests free more
    · exact .begins .load (.inl ⟨rfl, rfl⟩) free more

theorem happens_sentinel (c : Pager ρ) (visible : Bool) :
    Happens c (.sentinel visible) (c.sentinel visible) := by
  unfold sentinel
  split
  · rename_i ready
    simp only [Bool.and_eq_true, Option.isNone_iff_eq_none] at ready
    obtain ⟨⟨⟨rfl, more⟩, free⟩, quiet⟩ := ready
    exact .begins .sentinel (.inr ⟨rfl, rfl, quiet⟩) free more
  · rename_i idle
    exact .declines visible (Bool.eq_false_iff.mpr idle)

theorem happens_answer (c : Pager ρ) (fetch : Nat) (outcome : Except FetchFailure (List ρ)) :
    Happens c (.answer fetch outcome) (c.answer fetch outcome) := by
  unfold answer
  split
  · rename_i none
    exact .ignores fetch outcome (by simpa using none)
  · rename_i f found
    have isOpen := List.mem_of_find?_eq_some found
    obtain rfl : f.number = fetch := by simpa using List.find?_some found
    by_cases current : f.generation = c.generation
    · simp only [current, beq_self_eq_true, if_true]
      exact .takes f outcome isOpen current
    · simp only [beq_eq_false_iff_ne.mpr current, Bool.false_eq_true, if_false]
      exact .drops f outcome isOpen current

theorem happens_setOrder (c : Pager ρ) {event : PagerEvent ρ} (about : event.isChange = true)
    (order : SortOrder) : Happens c event (c.setOrder order) := by
  unfold setOrder change
  split
  · exact .renews about c.predicates order _
  · exact .keeps about _

theorem happens_setPredicates (c : Pager ρ) (predicates : List Predicate) :
    Happens c (.setPredicates predicates) (c.setPredicates predicates) := by
  unfold setPredicates change
  split
  · exact .renews rfl predicates c.order _
  · exact .keeps rfl _

theorem happens (c : Pager ρ) (event : PagerEvent ρ) : Happens c event (c.step event) := by
  cases event with
  | load => exact c.happens_load
  | sentinel visible => exact c.happens_sentinel visible
  | answer fetch outcome => exact c.happens_answer fetch outcome
  | setPredicates predicates => exact c.happens_setPredicates predicates
  | setOrder order => exact c.happens_setOrder rfl order
  | toggle column => exact c.happens_setOrder rfl (c.order.clicked column)
  | reset => exact .renews rfl c.predicates c.order none

theorem Happens.of_requests {c : Pager ρ} {event : PagerEvent ρ} {after : Pager ρ × Progress ρ}
    (move : c.Happens event after) (asks : after.2.requests ≠ []) :
    c.loading = none ∧ c.hasMore = true ∧
      (event = .load ∨ event = .sentinel true ∧ c.error = none) ∧
      after.2.requests = [c.nextRequest] := by
  cases move with
  | begins caller who free more =>
    refine ⟨free, more, ?_, rfl⟩
    rcases who with ⟨load, -⟩ | ⟨sentinel, -, quiet⟩
    · exact .inl load
    · exact .inr ⟨sentinel, quiet⟩
  | joins | rests | declines | ignores | drops | takes | keeps | renews => exact absurd rfl asks

/-- What every run keeps: an open fetch of the present generation is the one that is loading, asks
for the rows after those that are there, and was begun when there could be more of them. A page that
is not full is the last one. -/
structure Tidy (c : Pager ρ) : Prop where
  numbered : ∀ f ∈ c.openFetches, f.number < c.fetchCount
  distinct : (c.openFetches.map OpenFetch.number).Nodup
  past : ∀ f ∈ c.openFetches, f.generation ≤ c.generation
  current : ∀ f ∈ c.openFetches, f.generation = c.generation →
    c.loading = some f.number ∧ f.request = c.nextRequest ∧ c.hasMore = true
  awaited : ∀ n, c.loading = some n →
    ∃ f ∈ c.openFetches, f.number = n ∧ f.generation = c.generation
  full : ∀ p ∈ c.pages.dropLast, c.pageSize ≤ p.length
  more : c.hasMore = c.pages.all fun p ↦ decide (c.pageSize ≤ p.length)
  failed : c.error ≠ none → c.hasMore = true

theorem Tidy.eq_of_number {c : Pager ρ} (h : c.Tidy) {f g : OpenFetch}
    (hf : f ∈ c.openFetches) (hg : g ∈ c.openFetches) (e : f.number = g.number) : f = g :=
  List.inj_on_of_nodup_map h.distinct hf hg e

theorem Tidy.find_open {c : Pager ρ} (tidy : c.Tidy) {f : OpenFetch} (isOpen : f ∈ c.openFetches) :
    c.openFetches.find? (·.number == f.number) = some f := by
  cases found : c.openFetches.find? (·.number == f.number) with
  | none => exact absurd (List.find?_eq_none.mp found f isOpen) (by simp)
  | some g =>
    have same : g.number = f.number := by simpa using List.find?_some found
    rw [tidy.eq_of_number (List.mem_of_find?_eq_some found) isOpen same]

theorem Tidy.answer_current {c : Pager ρ} (tidy : c.Tidy) {f : OpenFetch}
    (isOpen : f ∈ c.openFetches) (current : f.generation = c.generation)
    (outcome : Except FetchFailure (List ρ)) :
    c.answer f.number outcome =
      (c.takeIn (outcome.mapError (·.toError f.request.offset))).close f.number
        (outcome.mapError (·.toError f.request.offset)) := by
  simp only [answer, tidy.find_open isOpen, current, beq_self_eq_true, if_true]

theorem tidy_of_create {predicates : List Predicate} {order : SortOrder} {size : Int}
    {c : Pager ρ} (h : create? predicates order size = some c) : c.Tidy := by
  unfold create? at h
  split at h
  · obtain rfl := Option.some.inj h
    constructor <;> simp
  · simp at h

theorem Tidy.beginFetch {c : Pager ρ} (h : c.Tidy) (caller : Caller) (free : c.loading = none)
    (more : c.hasMore = true) : (c.beginFetch caller).1.Tidy where
  numbered := by
    intro f hf
    rcases List.mem_append.mp hf with hf | hf
    · exact Nat.lt_succ_of_lt (h.numbered f hf)
    · obtain rfl := List.mem_singleton.mp hf
      exact Nat.lt_succ_self _
  distinct := by
    simp only [Pager.beginFetch, List.map_append, List.map_cons, List.map_nil]
    refine List.nodup_append.mpr ⟨h.distinct, List.nodup_singleton _, ?_⟩
    intro n hn m hm e
    obtain ⟨f, hf, rfl⟩ := List.mem_map.mp hn
    have hlt := h.numbered f hf
    rw [List.mem_singleton.mp hm] at e
    omega
  past := by
    intro f hf
    rcases List.mem_append.mp hf with hf | hf
    · exact h.past f hf
    · obtain rfl := List.mem_singleton.mp hf
      exact Nat.le_refl _
  current := by
    intro f hf hg
    rcases List.mem_append.mp hf with hf | hf
    · have hl := (h.current f hf hg).1
      rw [free] at hl
      cases hl
    · obtain rfl := List.mem_singleton.mp hf
      exact ⟨rfl, rfl, more⟩
  awaited := by
    intro n hn
    refine ⟨⟨c.fetchCount, c.generation, c.nextRequest⟩, ?_, Option.some.inj hn, rfl⟩
    exact List.mem_append_right _ (List.mem_singleton_self _)
  full := h.full
  more := h.more
  failed := h.failed

theorem Tidy.renew {c : Pager ρ} (h : c.Tidy) (predicates : List Predicate) (order : SortOrder) :
    ({ c with predicates, order } : Pager ρ).reset.Tidy where
  numbered := h.numbered
  distinct := h.distinct
  past f hf := Nat.le_succ_of_le (h.past f hf)
  current f hf hg := absurd (h.past f hf) (by simp only [reset] at hg; omega)
  awaited n hn := by cases hn
  full p hp := by simp [reset] at hp
  more := rfl
  failed he := absurd rfl he

theorem Tidy.close_stale {c : Pager ρ} (h : c.Tidy) {f : OpenFetch} (hf : f ∈ c.openFetches)
    (stale : f.generation ≠ c.generation) (outcome : Except PageError (List ρ)) :
    (c.close f.number outcome).1.Tidy where
  numbered g hg := h.numbered g (List.mem_of_mem_filter hg)
  distinct := h.distinct.sublist (List.filter_sublist.map _)
  past g hg := h.past g (List.mem_of_mem_filter hg)
  current g hg := h.current g (List.mem_of_mem_filter hg)
  awaited n hn := by
    obtain ⟨g, hg, rfl, hc⟩ := h.awaited n hn
    refine ⟨g, List.mem_filter.mpr ⟨hg, ?_⟩, rfl, hc⟩
    have hne : g.number ≠ f.number := by
      intro e
      rw [h.eq_of_number hg hf e] at hc
      exact stale hc
    simpa using hne
  full := h.full
  more := h.more
  failed := h.failed

section TakeIn

variable (c : Pager ρ) (outcome : Except PageError (List ρ))

@[simp] theorem takeIn_generation : (c.takeIn outcome).generation = c.generation := by
  cases outcome <;> rfl

@[simp] theorem takeIn_fetchCount : (c.takeIn outcome).fetchCount = c.fetchCount := by
  cases outcome <;> rfl

@[simp] theorem takeIn_openFetches : (c.takeIn outcome).openFetches = c.openFetches := by
  cases outcome <;> rfl

@[simp] theorem takeIn_loading : (c.takeIn outcome).loading = none := by
  cases outcome <;> rfl

end TakeIn

theorem Tidy.take {c : Pager ρ} (h : c.Tidy) {f : OpenFetch} (hf : f ∈ c.openFetches)
    (now : f.generation = c.generation) (outcome : Except PageError (List ρ)) :
    ((c.takeIn outcome).close f.number outcome).1.Tidy := by
  obtain ⟨hl, -, hm⟩ := h.current f hf now
  have hall := h.more.symm.trans hm
  simp only [List.all_eq_true, decide_eq_true_eq] at hall
  -- no other open fetch is of this generation, since only one can be loading
  have hrest : ∀ g ∈ c.openFetches, g.number ≠ f.number → g.generation ≠ c.generation := by
    intro g hg hne hc
    have hg' := (h.current g hg hc).1
    rw [hl] at hg'
    exact hne (Option.some.inj hg').symm
  exact {
    numbered := by
      intro g hg
      have hg := List.mem_of_mem_filter hg
      rw [takeIn_openFetches] at hg
      simpa only [close, takeIn_fetchCount] using h.numbered g hg
    distinct := by
      simp only [close, takeIn_openFetches]
      exact h.distinct.sublist (List.filter_sublist.map _)
    past := by
      intro g hg
      have hg := List.mem_of_mem_filter hg
      rw [takeIn_openFetches] at hg
      simpa only [close, takeIn_generation] using h.past g hg
    current := by
      intro g hg hc
      obtain ⟨hg, hne⟩ := List.mem_filter.mp hg
      rw [takeIn_openFetches] at hg
      simp only [close, takeIn_generation] at hc
      exact absurd hc (hrest g hg (by simpa using hne))
    awaited := by
      intro n hn
      simp only [close, takeIn_loading] at hn
      cases hn
    full := by
      intro p hp
      cases outcome with
      | ok rows =>
        simp only [close, takeIn, List.dropLast_concat] at hp
        exact hall p hp
      | error e => exact h.full p hp
    more := by
      cases outcome with
      | ok rows => simp [close, takeIn, h.more]
      | error e => exact h.more
    failed := by
      intro he
      cases outcome with
      | ok rows => exact absurd rfl he
      | error e => exact hm }

theorem Happens.tidy {c : Pager ρ} {event : PagerEvent ρ} {after : Pager ρ × Progress ρ}
    (move : Happens c event after) (h : c.Tidy) : after.1.Tidy := by
  cases move with
  | begins caller asks free more => exact h.beginFetch caller free more
  | joins | rests | declines =>
    exact ⟨h.numbered, h.distinct, h.past, h.current, h.awaited, h.full, h.more, h.failed⟩
  | ignores | keeps => exact h
  | drops f outcome isOpen stale => exact h.close_stale isOpen stale _
  | takes f outcome isOpen current => exact h.take isOpen current _
  | renews about predicates order changed => exact h.renew predicates order

theorem Tidy.step {c : Pager ρ} (h : c.Tidy) (event : PagerEvent ρ) : (c.step event).1.Tidy :=
  (c.happens event).tidy h

theorem Tidy.run {c : Pager ρ} (h : c.Tidy) (events : List (PagerEvent ρ)) :
    (c.run events).Tidy := by
  induction events generalizing c with
  | nil => exact h
  | cons event rest ih => exact ih (h.step event)

def ofPairs : Pager Nat where
  pageSize := 2
  pageSize_pos := by decide
  predicates := []
  order := {}

end Pager

end CallSearch
