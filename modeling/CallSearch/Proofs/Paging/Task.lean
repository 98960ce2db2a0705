import CallSearch.Proofs.Paging.Run

namespace CallSearch

namespace Pager

variable {ρ : Type}

def requests (c : Pager ρ) : List (PagerEvent ρ) → List PageRequest
  | [] => []
  | event :: rest => (c.step event).2.requests ++ (c.step event).1.requests rest

def finished (c : Pager ρ) : List (PagerEvent ρ) → List (Nat × Completion ρ)
  | [] => []
  | event :: rest => (c.step event).2.finished ++ (c.step event).1.finished rest

/-- How a task ends during several events, as often as it does. -/
def endings (c : Pager ρ) (events : List (PagerEvent ρ)) (task : Nat) : List (Completion ρ) :=
  ((c.finished events).filter (·.1 == task)).map Prod.snd

theorem run_cons (c : Pager ρ) (event : PagerEvent ρ) (rest : List (PagerEvent ρ)) :
    c.run (event :: rest) = (c.step event).1.run rest :=
  List.foldl_cons ..

theorem endings_cons (c : Pager ρ) (event : PagerEvent ρ) (rest : List (PagerEvent ρ))
    (task : Nat) :
    c.endings (event :: rest) task =
      ((c.step event).2.finished.filter (·.1 == task)).map Prod.snd ++
        (c.step event).1.endings rest task := by
  rw [endings, finished, List.filter_append, List.map_append, endings]

/-- What every run keeps: tasks wait for open fetches, each for one, and began before. -/
structure Queued (c : Pager ρ) : Prop where
  waits : ∀ w ∈ c.waiters, ∃ f ∈ c.openFetches, f.number = w.fetch
  distinct : (c.waiters.map Waiter.task).Nodup
  begun : ∀ w ∈ c.waiters, w.task < c.taskCount

theorem queued_of_create {predicates : List Predicate} {order : SortOrder} {size : Int}
    {c : Pager ρ} (h : create? predicates order size = some c) : c.Queued := by
  unfold create? at h
  split at h
  · obtain rfl := Option.some.inj h
    constructor <;> simp
  · simp at h

section Invariant

variable {c : Pager ρ} {event : PagerEvent ρ} {after : Pager ρ × Progress ρ}

theorem Queued.distinct_append (h : c.Queued) (fetch : Nat) (caller : Caller) :
    ((c.waiters ++ [(⟨c.taskCount, fetch, caller⟩ : Waiter)]).map Waiter.task).Nodup := by
  rw [List.map_append, List.nodup_append]
  refine ⟨h.distinct, List.nodup_singleton _, ?_⟩
  intro task inside new isNew same
  obtain ⟨w, waiting, rfl⟩ := List.mem_map.mp inside
  have earlier := h.begun w waiting
  rw [List.mem_singleton.mp isNew] at same
  exact Nat.ne_of_lt earlier same

theorem Queued.begun_append (h : c.Queued) (fetch : Nat) (caller : Caller) :
    ∀ w ∈ c.waiters ++ [⟨c.taskCount, fetch, caller⟩], w.task < c.taskCount + 1 := by
  intro w waiting
  rcases List.mem_append.mp waiting with old | new
  · exact Nat.lt_succ_of_lt (h.begun w old)
  · rw [List.mem_singleton.mp new]
    exact Nat.lt_succ_self _

theorem Queued.close (h : c.Queued) (fetch : Nat) (outcome : Except PageError (List ρ)) :
    (c.close fetch outcome).1.Queued where
  waits w waiting := by
    obtain ⟨waiting, other⟩ := List.mem_filter.mp waiting
    obtain ⟨f, isOpen, same⟩ := h.waits w waiting
    exact ⟨f, List.mem_filter.mpr ⟨isOpen, by rwa [same]⟩, same⟩
  distinct := h.distinct.sublist (List.filter_sublist.map _)
  begun w waiting := h.begun w (List.mem_of_mem_filter waiting)

@[simp] theorem takeIn_waiters (c : Pager ρ) (outcome : Except PageError (List ρ)) :
    (c.takeIn outcome).waiters = c.waiters := by
  cases outcome <;> rfl

@[simp] theorem takeIn_taskCount (c : Pager ρ) (outcome : Except PageError (List ρ)) :
    (c.takeIn outcome).taskCount = c.taskCount := by
  cases outcome <;> rfl

theorem Queued.takeIn (h : c.Queued) (outcome : Except PageError (List ρ)) :
    (c.takeIn outcome).Queued := by
  cases outcome <;> exact ⟨h.waits, h.distinct, h.begun⟩

theorem Happens.queued (move : c.Happens event after) (tidy : c.Tidy) (h : c.Queued) :
    after.1.Queued := by
  cases move with
  | begins caller asks free more =>
    refine ⟨fun w waiting ↦ ?_, h.distinct_append _ _, h.begun_append _ _⟩
    rcases List.mem_append.mp waiting with old | new
    · obtain ⟨f, isOpen, same⟩ := h.waits w old
      exact ⟨f, List.mem_append_left _ isOpen, same⟩
    · rw [List.mem_singleton.mp new]
      exact ⟨_, List.mem_append_right _ (List.mem_singleton_self _), rfl⟩
  | joins fetch busy =>
    refine ⟨fun w waiting ↦ ?_, h.distinct_append _ _, h.begun_append _ _⟩
    rcases List.mem_append.mp waiting with old | new
    · exact h.waits w old
    · obtain ⟨f, isOpen, same, -⟩ := tidy.awaited fetch busy
      rw [List.mem_singleton.mp new]
      exact ⟨f, isOpen, same⟩
  | rests | declines =>
    exact ⟨h.waits, h.distinct, fun w waiting ↦ Nat.lt_succ_of_lt (h.begun w waiting)⟩
  | ignores | keeps => exact h
  | drops f outcome isOpen stale => exact h.close _ _
  | takes f outcome isOpen current => exact (h.takeIn _).close _ _
  | renews about predicates order changed => exact ⟨h.waits, h.distinct, h.begun⟩

theorem Queued.step (h : c.Queued) (tidy : c.Tidy) (event : PagerEvent ρ) :
    (c.step event).1.Queued :=
  (c.happens event).queued tidy h

theorem Queued.run (h : c.Queued) (tidy : c.Tidy) (events : List (PagerEvent ρ)) :
    (c.run events).Queued := by
  induction events generalizing c with
  | nil => exact h
  | cons event rest ih => exact ih (h.step tidy event) (tidy.step event)

end Invariant

section Stranded

variable {c : Pager ρ} {w : Waiter} {event : PagerEvent ρ} {after : Pager ρ × Progress ρ}

/-- Whether a task waits for a fetch of an earlier generation. -/
def Strands (c : Pager ρ) (w : Waiter) : Prop :=
  w ∈ c.waiters ∧ ∃ f ∈ c.openFetches, f.number = w.fetch ∧ f.generation ≠ c.generation

theorem strands_iff (tidy : c.Tidy) (queued : c.Queued) :
    c.Strands w ↔ w ∈ c.waiters ∧ c.loading ≠ some w.fetch := by
  refine and_congr_right fun waiting ↦ ?_
  constructor
  · rintro ⟨f, isOpen, same, stale⟩ busy
    obtain ⟨g, isOpen', same', current⟩ := tidy.awaited _ busy
    rw [tidy.eq_of_number isOpen' isOpen (same'.trans same.symm)] at current
    exact stale current
  · intro other
    obtain ⟨f, isOpen, same⟩ := queued.waits w waiting
    refine ⟨f, isOpen, same, fun current ↦ other ?_⟩
    rw [(tidy.current f isOpen current).1, same]

theorem Queued.fetch_ne (queued : c.Queued) (tidy : c.Tidy) (waiting : w ∈ c.waiters) :
    w.fetch ≠ c.fetchCount := by
  obtain ⟨f, isOpen, same⟩ := queued.waits w waiting
  have earlier := tidy.numbered f isOpen
  omega

/-- Whether whatever waits under the number of a task was begun by a caller and waits for a fetch of
an earlier generation. -/
structure Leaves (c : Pager ρ) (task : Nat) (caller : Caller) : Prop where
  begun : task < c.taskCount
  stranded : ∀ w ∈ c.waiters, w.task = task → w.caller = caller ∧ c.loading ≠ some w.fetch

variable {task : Nat} {caller : Caller} {completion : Completion ρ}

theorem leaves_of_strands (tidy : c.Tidy) (queued : c.Queued) (h : c.Strands w) :
    c.Leaves w.task w.caller := by
  obtain ⟨waiting, other⟩ := (strands_iff tidy queued).mp h
  refine ⟨queued.begun w waiting, fun v also same ↦ ?_⟩
  obtain rfl := List.inj_on_of_nodup_map queued.distinct also waiting same
  exact ⟨rfl, other⟩

theorem Happens.leaves (move : c.Happens event after) (tidy : c.Tidy) (queued : c.Queued)
    (h : c.Leaves task caller) : after.1.Leaves task caller := by
  have new (fetch : Nat) (caller : Caller) : (⟨c.taskCount, fetch, caller⟩ : Waiter).task ≠ task :=
    Nat.ne_of_gt h.begun
  cases move with
  | begins caller asks free more =>
    refine ⟨Nat.lt_succ_of_lt h.begun, fun w waiting same ↦ ?_⟩
    rcases List.mem_append.mp waiting with old | isNew
    · refine ⟨(h.stranded w old same).1, fun busy ↦ ?_⟩
      exact queued.fetch_ne tidy old (Option.some.inj busy).symm
    · rw [List.mem_singleton.mp isNew] at same
      exact absurd same (new _ _)
  | joins fetch busy =>
    refine ⟨Nat.lt_succ_of_lt h.begun, fun w waiting same ↦ ?_⟩
    rcases List.mem_append.mp waiting with old | isNew
    · exact h.stranded w old same
    · rw [List.mem_singleton.mp isNew] at same
      exact absurd same (new _ _)
  | rests | declines => exact ⟨Nat.lt_succ_of_lt h.begun, h.stranded⟩
  | ignores | keeps => exact h
  | drops f outcome isOpen stale =>
    exact ⟨h.begun, fun w waiting ↦ h.stranded w (List.mem_of_mem_filter waiting)⟩
  | takes f outcome isOpen current =>
    refine ⟨by simpa [close] using h.begun, fun w waiting same ↦ ?_⟩
    simp only [close, takeIn_waiters] at waiting
    exact ⟨(h.stranded w (List.mem_of_mem_filter waiting) same).1, by simp [close]⟩
  | renews about predicates order changed =>
    exact ⟨h.begun, fun w waiting same ↦ ⟨(h.stranded w waiting same).1, by simp [reset]⟩⟩

theorem Happens.ends (move : c.Happens event after) (tidy : c.Tidy) (h : c.Leaves task caller)
    (ended : (task, completion) ∈ after.2.finished) :
    completion = completionFor caller (.ok []) := by
  cases move with
  | begins | joins | ignores | keeps | renews => cases ended
  | rests | declines =>
    have same := congrArg Prod.fst (List.mem_singleton.mp ended)
    exact absurd same (Nat.ne_of_lt h.begun)
  | drops f outcome isOpen stale =>
    obtain ⟨w, inside, same⟩ := List.mem_map.mp ended
    cases same
    rw [(h.stranded w (List.mem_of_mem_filter inside) rfl).1]
  | takes f outcome isOpen current =>
    obtain ⟨w, inside, same⟩ := List.mem_map.mp ended
    cases same
    obtain ⟨waiting, same⟩ := List.mem_filter.mp inside
    rw [takeIn_waiters] at waiting
    have busy := (tidy.current f isOpen current).1
    rw [← beq_iff_eq.mp same] at busy
    exact absurd busy (h.stranded w waiting rfl).2

theorem Leaves.ends (h : c.Leaves task caller) (tidy : c.Tidy) (queued : c.Queued)
    (events : List (PagerEvent ρ)) (ended : (task, completion) ∈ c.finished events) :
    completion = completionFor caller (.ok []) := by
  induction events generalizing c with
  | nil => cases ended
  | cons event rest ih =>
    have move := c.happens event
    rcases List.mem_append.mp ended with now | later
    · exact move.ends tidy h now
    · exact ih (move.leaves tidy queued h) (tidy.step event) (queued.step tidy event) later

end Stranded

end Pager

end CallSearch
