import CallSearch.Proofs.Paging.Discipline
import CallSearch.Proofs.Paging.Task

namespace CallSearch

variable {ρ : Type}

/-- Who begins a task by an event, if there is one. -/
def PagerEvent.caller? : PagerEvent ρ → Option Caller
  | .load => some .load
  | .sentinel _ => some .sentinel
  | .answer .. | .setPredicates _ | .setOrder _ | .toggle _ | .reset => none

/-- A task as it begins: the fetches that are loading, and those that it issues. -/
structure BegunTask where
  caller : Caller
  loading : List Nat
  issued : List Nat

/-- Whether a task issued a fetch, or is to load and joined the fetch while that was loading. -/
def BegunTask.Shares (t : BegunTask) (fetch : Nat) : Prop :=
  fetch ∈ t.issued ∨ t.caller = .load ∧ fetch ∈ t.loading

/-- The tasks of a pager in the order in which they began, and those that ended. -/
structure TaskLog (ρ : Type) where
  begun : List BegunTask := []
  ended : List (Nat × Completion ρ) := []

namespace TaskLog

/-- Whether a task has a share in a fetch and did not end. -/
def Awaits (log : TaskLog ρ) (task fetch : Nat) : Prop :=
  ∃ t, log.begun[task]? = some t ∧ t.Shares fetch ∧ task ∉ log.ended.map Prod.fst

def Loads (log : TaskLog ρ) (task fetch : Nat) : Prop :=
  log.Awaits task fetch ∧ ∃ t, log.begun[task]? = some t ∧ t.caller = .load

/-- The log after an event, with the fetches that are loading before it, those that it issues and
the tasks that it ends. -/
def note (log : TaskLog ρ) (event : PagerEvent ρ) (loading issued : List Nat)
    (ended : List (Nat × Completion ρ)) : TaskLog ρ where
  begun := log.begun ++ (event.caller?.map (⟨·, loading, issued⟩)).toList
  ended := log.ended ++ ended

/-- Whether the tasks of a pager are those of a log. A task waits for a fetch if it has a share in
it, and a task without a share in any fetch ends at once. -/
structure Tells (log : TaskLog ρ) (c : Pager ρ) : Prop where
  count : log.begun.length = c.taskCount
  waits : ∀ w, w ∈ c.waiters ↔
    ∃ t, log.begun[w.task]? = some t ∧ t.caller = w.caller ∧ t.Shares w.fetch ∧
      w.task ∉ log.ended.map Prod.fst
  known : ∀ task ∈ log.ended.map Prod.fst, task < log.begun.length
  once : (log.ended.map Prod.fst).Nodup
  idle : ∀ task t, log.begun[task]? = some t → (∀ fetch, ¬t.Shares fetch) →
    task ∈ log.ended.map Prod.fst
  told : ∀ task t completion, log.begun[task]? = some t → t.caller = .sentinel →
    (task, completion) ∈ log.ended → completion = .requested (!t.issued.isEmpty)
  apart : ∀ t ∈ log.begun, t.caller = .load → t.loading ≠ [] → t.issued = []

theorem tells_of_create {predicates : List Predicate} {order : SortOrder} {size : Int}
    {c : Pager ρ} (h : Pager.create? predicates order size = some c) :
    ({} : TaskLog ρ).Tells c := by
  unfold Pager.create? at h
  split at h
  · obtain rfl := Option.some.inj h
    constructor <;> simp
  · simp at h

variable {log : TaskLog ρ} {c : Pager ρ}

theorem Tells.awaits_iff (h : log.Tells c) {task fetch : Nat} :
    log.Awaits task fetch ↔ ∃ w ∈ c.waiters, w.task = task ∧ w.fetch = fetch := by
  constructor
  · rintro ⟨t, began, shares, going⟩
    exact ⟨⟨task, fetch, t.caller⟩, (h.waits _).mpr ⟨t, began, rfl, shares, going⟩, rfl, rfl⟩
  · rintro ⟨w, waiting, rfl, rfl⟩
    obtain ⟨t, began, -, shares, going⟩ := (h.waits w).mp waiting
    exact ⟨t, began, shares, going⟩

theorem Tells.loads_iff (h : log.Tells c) {task fetch : Nat} :
    log.Loads task fetch ↔ ⟨task, fetch, .load⟩ ∈ c.waiters := by
  rw [h.waits]
  constructor
  · rintro ⟨⟨t, began, shares, going⟩, t', began', loads⟩
    obtain rfl := Option.some.inj (began.symm.trans began')
    exact ⟨t, began, loads, shares, going⟩
  · rintro ⟨t, began, loads, shares, going⟩
    exact ⟨⟨t, began, shares, going⟩, t, began, loads⟩

section Begun

variable {t : BegunTask}

theorem getElem?_concat_iff {α : Type} {items : List α} {a b : α} {i : Nat} :
    (items ++ [a])[i]? = some b ↔ items[i]? = some b ∨ i = items.length ∧ a = b := by
  rcases Nat.lt_trichotomy i items.length with earlier | rfl | later
  · rw [List.getElem?_append_left earlier]
    simp [Nat.ne_of_lt earlier]
  · simp
  · rw [List.getElem?_eq_none (by rw [List.length_append, List.length_singleton]; omega),
      List.getElem?_eq_none (by omega)]
    simp [Nat.ne_of_gt later]

theorem Tells.new_task (h : log.Tells c) : log.begun.length ∉ log.ended.map Prod.fst := by
  intro ended
  exact Nat.lt_irrefl _ (h.known _ ended)

theorem Tells.apart_concat (h : log.Tells c)
    (one : t.caller = .load → t.loading ≠ [] → t.issued = []) :
    ∀ u ∈ log.begun ++ [t], u.caller = .load → u.loading ≠ [] → u.issued = [] := by
  intro u among
  rcases List.mem_append.mp among with old | new
  · exact h.apart u old
  · rw [List.mem_singleton.mp new]
    exact one

theorem Tells.wait (h : log.Tells c) (fetch : Nat) {after : Pager ρ}
    (share : ∀ other, t.Shares other ↔ other = fetch)
    (one : t.caller = .load → t.loading ≠ [] → t.issued = [])
    (tasks : after.taskCount = c.taskCount + 1)
    (waiters : after.waiters = c.waiters ++ [⟨c.taskCount, fetch, t.caller⟩]) :
    ({ log with begun := log.begun ++ [t] } : TaskLog ρ).Tells after where
  count := by
    rw [tasks, ← h.count]
    exact List.length_append
  waits w := by
    simp only [getElem?_concat_iff, waiters, List.mem_append, List.mem_singleton, h.waits w,
      ← h.count]
    constructor
    · rintro (⟨u, began, rest⟩ | rfl)
      · exact ⟨u, .inl began, rest⟩
      · exact ⟨t, .inr ⟨rfl, rfl⟩, rfl, (share fetch).mpr rfl, h.new_task⟩
    · rintro ⟨u, began | ⟨last, rfl⟩, caller, shares, going⟩
      · exact .inl ⟨u, began, caller, shares, going⟩
      · obtain ⟨task, other, who⟩ := w
        obtain rfl : task = log.begun.length := last
        obtain rfl : t.caller = who := caller
        obtain rfl : other = fetch := (share other).mp shares
        exact .inr rfl
  known task ended := by
    have earlier := h.known task ended
    rw [List.length_append]
    omega
  once := h.once
  idle task u began none := by
    rcases getElem?_concat_iff.mp began with old | ⟨-, rfl⟩
    · exact h.idle task u old none
    · exact absurd ((share fetch).mpr rfl) (none fetch)
  told task u completion began caller ended := by
    rcases getElem?_concat_iff.mp began with old | ⟨rfl, -⟩
    · exact h.told task u completion old caller ended
    · exact absurd (List.mem_map_of_mem ended) h.new_task
  apart := h.apart_concat one

theorem Tells.endAtOnce (h : log.Tells c) {completion : Completion ρ} {after : Pager ρ}
    (share : ∀ fetch, ¬t.Shares fetch)
    (told : t.caller = .sentinel → completion = .requested false)
    (tasks : after.taskCount = c.taskCount + 1) (waiters : after.waiters = c.waiters) :
    (⟨log.begun ++ [t], log.ended ++ [(c.taskCount, completion)]⟩ : TaskLog ρ).Tells after where
  count := by
    rw [tasks, ← h.count]
    exact List.length_append
  waits w := by
    simp only [getElem?_concat_iff, waiters, List.map_append, List.map_cons, List.map_nil,
      List.mem_append, List.mem_singleton, h.waits w, ← h.count, not_or]
    constructor
    · rintro ⟨u, began, caller, shares, going⟩
      have earlier := (List.getElem?_eq_some_iff.mp began).1
      exact ⟨u, .inl began, caller, shares, going, Nat.ne_of_lt earlier⟩
    · rintro ⟨u, began | ⟨-, rfl⟩, caller, shares, going, -⟩
      · exact ⟨u, began, caller, shares, going⟩
      · exact absurd shares (share w.fetch)
  known task ended := by
    rw [List.map_append, List.mem_append] at ended
    rw [List.length_append, List.length_singleton]
    rcases ended with old | new
    · have earlier := h.known task old
      omega
    · have now : task = c.taskCount := by simpa using new
      have count := h.count
      omega
  once := by
    rw [List.map_append, List.nodup_append]
    refine ⟨h.once, List.nodup_singleton _, ?_⟩
    rintro task ended last now rfl
    obtain rfl : task = log.begun.length := (List.mem_singleton.mp now).trans h.count.symm
    exact h.new_task ended
  idle task u began none := by
    rw [List.map_append, List.mem_append]
    rcases getElem?_concat_iff.mp began with old | ⟨rfl, -⟩
    · exact .inl (h.idle task u old none)
    · simp [h.count]
  told task u completion' began caller ended := by
    rcases getElem?_concat_iff.mp began with old | ⟨rfl, rfl⟩
    · rcases List.mem_append.mp ended with before | now
      · exact h.told task u completion' old caller before
      · have same : task = c.taskCount := congrArg Prod.fst (List.mem_singleton.mp now)
        have earlier := (List.getElem?_eq_some_iff.mp old).1
        have count := h.count
        omega
    · have issuedNone : t.issued = [] := by
        apply List.eq_nil_iff_forall_not_mem.mpr
        intro fetch issued
        exact share fetch (.inl issued)
      rcases List.mem_append.mp ended with before | now
      · exact absurd (List.mem_map_of_mem before) h.new_task
      · obtain rfl : completion' = completion := congrArg Prod.snd (List.mem_singleton.mp now)
        rw [issuedNone]
        exact told caller
  apart := by
    refine h.apart_concat fun caller busy ↦ ?_
    obtain ⟨fetch, loading⟩ := List.exists_mem_of_ne_nil _ busy
    exact absurd (.inr ⟨caller, loading⟩) (share fetch)

end Begun

section Close

variable {fetch : Nat} {outcome : Except PageError (List ρ)}

theorem mem_closed {task : Nat} :
    task ∈ (c.close fetch outcome).2.finished.map Prod.fst ↔
      ∃ w ∈ c.waiters, w.task = task ∧ w.fetch = fetch := by
  simp only [Pager.close, List.map_map, List.mem_map, List.mem_filter, Function.comp_apply,
    beq_iff_eq]
  constructor
  · rintro ⟨w, ⟨waiting, here⟩, same⟩
    exact ⟨w, waiting, same, here⟩
  · rintro ⟨w, waiting, same, here⟩
    exact ⟨w, ⟨waiting, here⟩, same⟩

theorem Tells.close (h : log.Tells c) (queued : c.Queued) (fetch : Nat)
    (outcome : Except PageError (List ρ)) :
    ({ log with ended := log.ended ++ (c.close fetch outcome).2.finished } : TaskLog ρ).Tells
      (c.close fetch outcome).1 where
  count := h.count
  waits w := by
    have remains : w ∈ (c.close fetch outcome).1.waiters ↔ w ∈ c.waiters ∧ w.fetch ≠ fetch := by
      simp [Pager.close]
    rw [remains]
    simp only [List.map_append, List.mem_append, mem_closed, not_or]
    constructor
    · rintro ⟨waiting, other⟩
      obtain ⟨t, began, caller, shares, going⟩ := (h.waits w).mp waiting
      refine ⟨t, began, caller, shares, going, ?_⟩
      rintro ⟨v, also, same, here⟩
      obtain rfl := List.inj_on_of_nodup_map queued.distinct also waiting same
      exact other here
    · rintro ⟨t, began, caller, shares, going, kept⟩
      have waiting := (h.waits w).mpr ⟨t, began, caller, shares, going⟩
      exact ⟨waiting, fun here ↦ kept ⟨w, waiting, rfl, here⟩⟩
  known task ended := by
    rw [List.map_append, List.mem_append, mem_closed] at ended
    rcases ended with old | ⟨w, waiting, rfl, -⟩
    · exact h.known task old
    · rw [h.count]
      exact queued.begun w waiting
  once := by
    rw [List.map_append, List.nodup_append]
    refine ⟨h.once, ?_, ?_⟩
    · have tasks : (c.close fetch outcome).2.finished.map Prod.fst =
          (c.waiters.filter (·.fetch == fetch)).map Waiter.task := by
        simp [Pager.close]
      rw [tasks]
      exact queued.distinct.sublist (List.filter_sublist.map _)
    · rintro task ended last now rfl
      obtain ⟨w, waiting, rfl, -⟩ := mem_closed.mp now
      obtain ⟨t, -, -, -, going⟩ := (h.waits w).mp waiting
      exact going ended
  idle task t began none := by
    rw [List.map_append, List.mem_append]
    exact .inl (h.idle task t began none)
  told task t completion began caller ended := by
    rcases List.mem_append.mp ended with before | now
    · exact h.told task t completion began caller before
    · obtain ⟨w, inside, same⟩ := List.mem_map.mp now
      cases same
      obtain ⟨t', began', caller', shares, -⟩ := (h.waits w).mp (List.mem_of_mem_filter inside)
      obtain rfl := Option.some.inj (began.symm.trans began')
      rw [← caller', caller]
      -- what views the end joins no fetch, so it issued the one that it has a share in
      rcases shares with issued | ⟨loads, -⟩
      · have some : t.issued.isEmpty = false := by
          simpa using List.ne_nil_of_mem issued
        rw [some]
        rfl
      · rw [caller] at loads
        cases loads
  apart := h.apart

end Close

end TaskLog

/-- A pager with its journal and the log of its tasks. -/
structure AttendedPager (ρ : Type) extends WatchedPager ρ where
  log : TaskLog ρ := {}

namespace AttendedPager

variable {w : AttendedPager ρ} {event : PagerEvent ρ} {after : Pager ρ × Progress ρ}

def become (w : AttendedPager ρ) (event : PagerEvent ρ) (after : Pager ρ × Progress ρ) :
    AttendedPager ρ :=
  let journal := w.journal.note w.pager.generation event after.2.requests
  { pager := after.1
    journal
    log := w.log.note event ((w.journal.pendingOf w.pager.generation).map OpenFetch.number)
      ((journal.issued.drop w.journal.issued.length).map OpenFetch.number) after.2.finished }

def step (w : AttendedPager ρ) (event : PagerEvent ρ) : AttendedPager ρ :=
  w.become event (w.pager.step event)

def run (w : AttendedPager ρ) (events : List (PagerEvent ρ)) : AttendedPager ρ :=
  events.foldl step w

/-- What every run keeps between a pager, its journal and the log of its tasks. -/
structure Attended (w : AttendedPager ρ) : Prop where
  accounted : w.toWatchedPager.Accounted
  queued : w.pager.Queued
  tells : w.log.Tells w.pager

theorem attended_of_create {predicates : List Predicate} {order : SortOrder} {size : Int}
    {c : Pager ρ} (h : Pager.create? predicates order size = some c) :
    Attended (⟨⟨c, {}⟩, {}⟩ : AttendedPager ρ) :=
  ⟨WatchedPager.accounted_of_create h, Pager.queued_of_create h, TaskLog.tells_of_create h⟩

theorem log_of_answer (none : event.caller? = none) :
    (w.become event after).log = { w.log with ended := w.log.ended ++ after.2.finished } := by
  simp [become, TaskLog.note, none]

theorem drop_issued (w : AttendedPager ρ) (event : PagerEvent ρ)
    (silent : after.2.requests = []) :
    (w.become event after).journal.issued.drop w.journal.issued.length = [] := by
  have same : (w.journal.note w.pager.generation event []).issued = w.journal.issued := by
    cases event with
    | answer fetch outcome =>
      rw [Journal.note_answer]
      cases w.journal.pending.find? (·.number == fetch) <;> rfl
    | load | sentinel | setPredicates | setOrder | toggle | reset => rfl
  rw [become, silent]
  dsimp only
  rw [same, List.drop_length]

theorem Attended.pending_free (h : w.Attended) (free : w.pager.loading = none) :
    w.journal.pendingOf w.pager.generation = [] :=
  h.accounted.pendingOf_eq_nil_iff.mpr free

/-- While a fetch is loading, it is the only one of the present generation that was not answered. -/
theorem Attended.pending_busy (h : w.Attended) {fetch : Nat}
    (busy : w.pager.loading = some fetch) :
    (w.journal.pendingOf w.pager.generation).map OpenFetch.number = [fetch] := by
  obtain ⟨f, isOpen, rfl, current⟩ := h.accounted.tidy.awaited fetch busy
  have inside : f ∈ w.journal.pendingOf w.pager.generation := by
    rw [h.accounted.pendingOf_eq, List.mem_filter]
    exact ⟨isOpen, beq_iff_eq.mpr current⟩
  have alone := h.accounted.pendingOf_length_le
  match pending : w.journal.pendingOf w.pager.generation with
  | [] => simp [pending] at inside
  | [g] =>
    rw [pending, List.mem_singleton] at inside
    rw [inside]
    rfl
  | g :: g' :: rest => simp [pending] at alone

theorem Attended.tells_beginFetch (h : w.Attended) (caller : Caller)
    (who : event.caller? = some caller) (free : w.pager.loading = none) :
    (w.become event (w.pager.beginFetch caller)).log.Tells (w.pager.beginFetch caller).1 := by
  have issued : (w.become event (w.pager.beginFetch caller)).journal.issued =
      w.journal.issued ++ [⟨w.journal.issued.length, w.pager.generation, w.pager.nextRequest⟩] := by
    cases event with
    | load | sentinel => rfl
    | answer | setPredicates | setOrder | toggle | reset => cases who
  have log : (w.become event (w.pager.beginFetch caller)).log =
      { w.log with begun := w.log.begun ++ [⟨caller, [], [w.pager.fetchCount]⟩] } := by
    rw [become] at issued ⊢
    dsimp only at issued ⊢
    rw [issued, h.pending_free free, List.drop_left, ← h.accounted.issued_length]
    simp [TaskLog.note, who, Pager.beginFetch]
  rw [log]
  refine h.tells.wait w.pager.fetchCount ?_ ?_ rfl rfl
  · intro other
    simp [BegunTask.Shares]
  · intro _ busy
    exact absurd rfl busy

theorem Attended.tells_join (h : w.Attended) {fetch : Nat} (busy : w.pager.loading = some fetch) :
    let joined : Pager ρ := { w.pager with
      taskCount := w.pager.taskCount + 1
      waiters := w.pager.waiters ++ [⟨w.pager.taskCount, fetch, .load⟩] }
    (w.become .load (joined, {})).log.Tells joined := by
  intro joined
  have log : (w.become .load (joined, {})).log =
      { w.log with begun := w.log.begun ++ [⟨.load, [fetch], []⟩] } := by
    have silent : ((joined, {}) : Pager ρ × Progress ρ).2.requests = [] := rfl
    have issued := drop_issued w .load silent
    rw [become] at issued ⊢
    dsimp only at issued ⊢
    rw [issued, h.pending_busy busy]
    simp [TaskLog.note, PagerEvent.caller?]
  rw [log]
  refine h.tells.wait fetch ?_ ?_ rfl rfl
  · intro other
    simp [BegunTask.Shares]
  · intro _ _
    rfl

theorem Attended.tells_finishAtOnce (h : w.Attended) (caller : Caller)
    (who : event.caller? = some caller) {completion : Completion ρ}
    (free : caller = .load → w.pager.loading = none)
    (told : caller = .sentinel → completion = .requested false) :
    (w.become event (w.pager.finishAtOnce completion)).log.Tells
      (w.pager.finishAtOnce completion).1 := by
  have silent : (w.pager.finishAtOnce completion).2.requests = [] := rfl
  have issued := drop_issued w event silent
  have log : (w.become event (w.pager.finishAtOnce completion)).log =
      ⟨w.log.begun ++
          [⟨caller, (w.journal.pendingOf w.pager.generation).map OpenFetch.number, []⟩],
        w.log.ended ++ [(w.pager.taskCount, completion)]⟩ := by
    rw [become] at issued ⊢
    dsimp only at issued ⊢
    rw [issued]
    simp [TaskLog.note, who, Pager.finishAtOnce]
  rw [log]
  refine h.tells.endAtOnce ?_ told rfl rfl
  rintro fetch (issued | ⟨loads, pending⟩)
  · cases issued
  · rw [h.pending_free (free loads)] at pending
    cases pending

theorem Attended.happens (h : w.Attended) (move : w.pager.Happens event after) :
    (w.become event after).Attended where
  accounted := h.accounted.happens move
  queued := move.queued h.accounted.tidy h.queued
  tells := by
    cases move with
    | begins caller asks free more =>
      refine h.tells_beginFetch caller ?_ free
      rcases asks with ⟨rfl, rfl⟩ | ⟨rfl, rfl, -⟩ <;> rfl
    | joins fetch busy => exact h.tells_join busy
    | rests free last =>
      apply h.tells_finishAtOnce .load rfl
      · intro _
        exact free
      · intro sentinel
        cases sentinel
    | declines visible idle =>
      apply h.tells_finishAtOnce .sentinel rfl
      · intro load
        cases load
      · intro _
        rfl
    | ignores fetch outcome unknown =>
      rw [log_of_answer rfl, List.append_nil]
      exact h.tells
    | drops f outcome isOpen stale =>
      rw [log_of_answer rfl]
      exact h.tells.close h.queued f.number (.ok [])
    | takes f outcome isOpen current =>
      rw [log_of_answer rfl]
      refine TaskLog.Tells.close ?_ (h.queued.takeIn _) f.number _
      exact ⟨by rw [Pager.takeIn_taskCount, h.tells.count],
        fun v ↦ by rw [Pager.takeIn_waiters, h.tells.waits v], h.tells.known, h.tells.once,
        h.tells.idle, h.tells.told, h.tells.apart⟩
    | keeps about | renews about =>
      have none : event.caller? = none := by
        cases event with
        | load | sentinel | answer => cases about
        | setPredicates | setOrder | toggle | reset => rfl
      rw [log_of_answer none, List.append_nil]
      exact ⟨h.tells.count, h.tells.waits, h.tells.known, h.tells.once, h.tells.idle,
        h.tells.told, h.tells.apart⟩

theorem Attended.run (h : w.Attended) (events : List (PagerEvent ρ)) :
    (w.run events).Attended := by
  induction events generalizing w with
  | nil => exact h
  | cons event rest ih =>
    apply ih
    exact h.happens (w.pager.happens event)

/-- What a pager promises to its tasks, by the log of what each of them issued and joined. -/
structure Served (w : AttendedPager ρ) : Prop where
  ends_once : (w.log.ended.map Prod.fst).Nodup
  ends_begun : ∀ task ∈ w.log.ended.map Prod.fst, task < w.log.begun.length
  answered : ∀ fetch outcome task,
    task ∈ (w.pager.step (.answer fetch outcome)).2.finished.map Prod.fst ↔
      w.log.Awaits task fetch
  rows : ∀ f ∈ w.journal.pendingOf w.pager.generation, ∀ rows task, w.log.Loads task f.number →
    (task, .rows rows) ∈ (w.pager.step (.answer f.number (.ok rows))).2.finished
  failure : ∀ f ∈ w.journal.pendingOf w.pager.generation, ∀ failure, ∃ error,
    (w.pager.step (.answer f.number (.error failure))).1.error = some error ∧
      ∀ task, w.log.Loads task f.number →
        (task, .failed error) ∈ (w.pager.step (.answer f.number (.error failure))).2.finished
  alone : ∀ event, (∀ fetch outcome, event ≠ .answer fetch outcome) →
    ∀ task ∈ (w.pager.step event).2.finished.map Prod.fst, task = w.log.begun.length
  sentinel : ∀ task t, w.log.begun[task]? = some t → t.caller = .sentinel →
    ∀ completion, (task, completion) ∈ w.log.ended → completion = .requested (!t.issued.isEmpty)
  at_once : ∀ task t, w.log.begun[task]? = some t → t.caller = .sentinel → t.issued = [] →
    (task, .requested false) ∈ w.log.ended
  joined : ∀ t ∈ w.log.begun, t.caller = .load → t.loading ≠ [] → t.issued = []

theorem Attended.answered (h : w.Attended) (fetch : Nat)
    (outcome : Except FetchFailure (List ρ)) (task : Nat) :
    task ∈ (w.pager.step (.answer fetch outcome)).2.finished.map Prod.fst ↔
      w.log.Awaits task fetch := by
  rw [h.tells.awaits_iff]
  have move := w.pager.happens (.answer fetch outcome)
  generalize w.pager.step (.answer fetch outcome) = after at move ⊢
  cases move with
  | begins caller asks => rcases asks with ⟨other, -⟩ | ⟨other, -⟩ <;> cases other
  | ignores _ _ unknown =>
    constructor
    · intro ended
      cases ended
    · rintro ⟨v, waiting, -, here⟩
      obtain ⟨f, isOpen, same⟩ := h.queued.waits v waiting
      exact absurd (same.trans here) (unknown f isOpen)
  | drops f outcome isOpen stale => exact TaskLog.mem_closed
  | takes f outcome isOpen current => rw [TaskLog.mem_closed, Pager.takeIn_waiters]
  | keeps about | renews about => cases about

theorem Attended.answer_pending (h : w.Attended) {f : OpenFetch}
    (pending : f ∈ w.journal.pendingOf w.pager.generation)
    (outcome : Except FetchFailure (List ρ)) :
    w.pager.step (.answer f.number outcome) =
      (w.pager.takeIn (outcome.mapError (·.toError f.request.offset))).close f.number
        (outcome.mapError (·.toError f.request.offset)) := by
  rw [h.accounted.pendingOf_eq, List.mem_filter] at pending
  exact h.accounted.tidy.answer_current pending.1 (beq_iff_eq.mp pending.2) outcome

theorem Attended.loads_end (h : w.Attended) {fetch task : Nat} (loads : w.log.Loads task fetch)
    (outcome : Except PageError (List ρ)) :
    (task, Pager.completionFor .load outcome) ∈
      ((w.pager.takeIn outcome).close fetch outcome).2.finished := by
  have waiting := h.tells.loads_iff.mp loads
  refine List.mem_map.mpr ⟨⟨task, fetch, .load⟩, List.mem_filter.mpr ⟨?_, ?_⟩, rfl⟩
  · rwa [Pager.takeIn_waiters]
  · exact beq_self_eq_true fetch

theorem Attended.alone (h : w.Attended) {event : PagerEvent ρ}
    (other : ∀ fetch outcome, event ≠ .answer fetch outcome) :
    ∀ task ∈ (w.pager.step event).2.finished.map Prod.fst, task = w.log.begun.length := by
  intro task ended
  have move := w.pager.happens event
  generalize w.pager.step event = after at move ended
  rw [h.tells.count]
  cases move with
  | begins | joins | keeps | renews => cases ended
  | rests | declines => exact List.mem_singleton.mp ended
  | ignores fetch outcome => exact absurd rfl (other fetch outcome)
  | drops f outcome | takes f outcome => exact absurd rfl (other f.number outcome)

theorem Attended.at_once (h : w.Attended) {task : Nat} {t : BegunTask}
    (began : w.log.begun[task]? = some t) (caller : t.caller = .sentinel) (none : t.issued = []) :
    (task, .requested false) ∈ w.log.ended := by
  have noShare : ∀ fetch, ¬t.Shares fetch := by
    rintro fetch (issued | ⟨loads, -⟩)
    · rw [none] at issued
      cases issued
    · rw [caller] at loads
      cases loads
  obtain ⟨⟨task', completion⟩, ended, rfl⟩ := List.mem_map.mp (h.tells.idle task t began noShare)
  have told := h.tells.told _ t completion began caller ended
  rw [none] at told
  rwa [told] at ended

/-- Tasks are served in whatever order loads, views of the end, answers and changes of the query
come. No task ends twice. An answer ends exactly the tasks that issued its fetch or joined it, and
every other event at most the task that it begins. All loads that share a fetch of the present
generation get its rows, or fail with the error that the pager then shows. A view of the end never
fails: it ends by saying whether it issued a fetch, and at once if it did not. A load that joins a
fetch issues none. -/
theorem served_run {predicates : List Predicate} {order : SortOrder} {size : Int}
    {start : Pager ρ} (created : Pager.create? predicates order size = some start)
    (events : List (PagerEvent ρ)) :
    ((⟨⟨start, {}⟩, {}⟩ : AttendedPager ρ).run events).Served := by
  have h := (attended_of_create created).run events
  generalize (⟨⟨start, {}⟩, {}⟩ : AttendedPager ρ).run events = w at h
  exact {
    ends_once := h.tells.once
    ends_begun := h.tells.known
    answered := h.answered
    rows := by
      intro f pending rows task loads
      rw [h.answer_pending pending]
      exact h.loads_end loads (.ok rows)
    failure := by
      intro f pending failure
      rw [h.answer_pending pending]
      refine ⟨failure.toError f.request.offset, rfl, ?_⟩
      intro task loads
      exact h.loads_end loads (.error (failure.toError f.request.offset))
    alone := fun _ other ↦ h.alone other
    sentinel := fun task t began caller completion ↦ h.tells.told task t completion began caller
    at_once := fun _ _ ↦ h.at_once
    joined := h.tells.apart }

def sharedFetch : List (PagerEvent Nat) :=
  [.load, .load, .sentinel true, .reset, .load, .answer 1 (.error (.other "down")),
   .sentinel true, .load, .answer 0 (.ok [1, 2]), .answer 2 (.ok [7])]

theorem served_sharedFetch :
    Pager.create? [] {} 2 = some .ofPairs ∧
      ((⟨⟨.ofPairs, {}⟩, {}⟩ : AttendedPager Nat).run sharedFetch).Served ∧
      ((⟨⟨.ofPairs, {}⟩, {}⟩ : AttendedPager Nat).run sharedFetch).log.ended =
        [(2, .requested false), (3, .failed ⟨some "down", some 0⟩), (4, .requested false),
          (0, .rows []), (1, .rows []), (5, .rows [7])] := by
  have created : Pager.create? [] {} 2 = some .ofPairs := rfl
  exact ⟨created, served_run created sharedFetch, rfl⟩

end AttendedPager

end CallSearch
