import CallSearch.Proofs.Paging.Task

namespace CallSearch

namespace Pager

variable {ρ : Type}

/-- Whether an event counts for the present generation: only answers to fetches that are not open in
it do not. -/
def heeds (c : Pager ρ) : PagerEvent ρ → Bool
  | .answer fetch _ => c.openFetches.any fun f ↦ f.number == fetch && f.generation == c.generation
  | _ => true

/-- Several events without those that do not count when they happen. -/
def noticed (c : Pager ρ) : List (PagerEvent ρ) → List (PagerEvent ρ)
  | [] => []
  | event :: rest =>
    if c.heeds event then event :: (c.step event).1.noticed rest else (c.step event).1.noticed rest

/-- A pager without what is left of earlier generations: their fetches and who waits for them. -/
def purged (c : Pager ρ) : Pager ρ :=
  { c with
    openFetches := c.openFetches.filter (·.generation == c.generation)
    waiters := c.waiters.filter fun w ↦ c.loading == some w.fetch }

variable {c d : Pager ρ} {event : PagerEvent ρ}

theorem Tidy.purged (tidy : c.Tidy) : c.purged.Tidy where
  numbered f isOpen := tidy.numbered f (List.mem_of_mem_filter isOpen)
  distinct := tidy.distinct.sublist (List.filter_sublist.map _)
  past f isOpen := tidy.past f (List.mem_of_mem_filter isOpen)
  current f isOpen := tidy.current f (List.mem_of_mem_filter isOpen)
  awaited n busy := by
    obtain ⟨f, isOpen, same, current⟩ := tidy.awaited n busy
    exact ⟨f, List.mem_filter.mpr ⟨isOpen, beq_iff_eq.mpr current⟩, same, current⟩
  full := tidy.full
  more := tidy.more
  failed := tidy.failed

theorem heeds_purged (c : Pager ρ) (event : PagerEvent ρ) :
    c.purged.heeds event = c.heeds event := by
  cases event with
  | answer fetch outcome =>
    simp only [heeds, purged, List.any_filter]
    congr 1
    funext f
    cases f.generation == c.generation <;> simp
  | load | sentinel | setPredicates | setOrder | toggle | reset => rfl

section Heeded

variable (tidy : c.Tidy) (queued : c.Queued)

include tidy queued

theorem purged_beginFetch (free : c.loading = none) (caller : Caller) :
    (c.purged.beginFetch caller).1.purged = (c.beginFetch caller).1.purged := by
  have fresh (w : Waiter) (waiting : w ∈ c.waiters) : ¬c.fetchCount = w.fetch :=
    (queued.fetch_ne tidy waiting).symm
  have same : c.purged.nextRequest = c.nextRequest := rfl
  simpa [purged, beginFetch, free, List.filter_filter, List.filter_append] using ⟨same, fresh⟩

theorem purged_load :
    c.purged.load.2 = c.load.2 ∧ c.purged.load.1.purged = c.load.1.purged := by
  cases busy : c.loading with
  | some fetch =>
    simp [load, busy, purged, List.filter_filter, List.filter_append]
  | none =>
    have free : c.purged.loading = none := busy
    have same : c.purged.hasMore = c.hasMore := rfl
    simp only [load, busy, free, same]
    split
    · exact ⟨rfl, purged_beginFetch tidy queued busy .load⟩
    · simp [finishAtOnce, purged, List.filter_filter]

theorem purged_sentinel (visible : Bool) :
    (c.purged.sentinel visible).2 = (c.sentinel visible).2 ∧
      (c.purged.sentinel visible).1.purged = (c.sentinel visible).1.purged := by
  have same : (visible && c.purged.hasMore && c.purged.loading.isNone && c.purged.error.isNone) =
      (visible && c.hasMore && c.loading.isNone && c.error.isNone) := rfl
  simp only [sentinel, same]
  split
  · next ready =>
    simp only [Bool.and_eq_true, Option.isNone_iff_eq_none] at ready
    exact ⟨rfl, purged_beginFetch tidy queued ready.1.2 .sentinel⟩
  · simp [finishAtOnce, purged, List.filter_filter]

end Heeded

theorem purged_answer (tidy : c.Tidy) {fetch : Nat} {outcome : Except FetchFailure (List ρ)}
    (heard : c.heeds (.answer fetch outcome)) :
    (c.purged.answer fetch outcome).2 = (c.answer fetch outcome).2 ∧
      (c.purged.answer fetch outcome).1.purged = (c.answer fetch outcome).1.purged := by
  obtain ⟨f, isOpen, counts⟩ := List.any_eq_true.mp heard
  simp only [Bool.and_eq_true, beq_iff_eq] at counts
  obtain ⟨rfl, current⟩ := counts
  have isOpen' : f ∈ c.purged.openFetches := List.mem_filter.mpr ⟨isOpen, by simpa using current⟩
  rw [tidy.answer_current isOpen current, tidy.purged.answer_current isOpen' current]
  have busy := (tidy.current f isOpen current).1
  have waiters : c.purged.waiters.filter (·.fetch == f.number) =
      c.waiters.filter (·.fetch == f.number) := by
    simp only [purged, busy, List.filter_filter]
    exact List.filter_congr fun w _ ↦ by grind
  have fetches : (c.purged.openFetches.filter (·.number != f.number)).filter
        (·.generation == c.generation) =
      (c.openFetches.filter (·.number != f.number)).filter (·.generation == c.generation) := by
    simp only [purged, List.filter_filter]
    exact List.filter_congr fun g _ ↦ by grind
  refine ⟨by simp only [close, takeIn_waiters, waiters], ?_⟩
  cases outcome.mapError (·.toError f.request.offset) with
  | ok rows =>
    simp only [close, takeIn, Pager.purged, Option.none_beq_some, List.filter_false, mk.injEq,
      true_and, and_true]
    exact ⟨rfl, fetches⟩
  | error e =>
    simp only [close, takeIn, Pager.purged, Option.none_beq_some, List.filter_false, mk.injEq,
      true_and, and_true]
    exact fetches

theorem purged_reset (tidy : c.Tidy) (predicates : List Predicate) (order : SortOrder) :
    ({ c.purged with predicates, order } : Pager ρ).reset.purged =
      ({ c with predicates, order } : Pager ρ).reset.purged := by
  have none : c.openFetches.filter (·.generation == c.generation + 1) = [] := by
    refine List.filter_eq_nil_iff.mpr fun f isOpen ↦ ?_
    have past := tidy.past f isOpen
    simp only [beq_iff_eq]
    omega
  have apart : ∀ f ∈ c.openFetches, f.generation = c.generation + 1 → f.generation ≠ c.generation :=
    fun f _ next ↦ by omega
  simpa [reset, purged, List.filter_filter, none] using apart

theorem purged_change (tidy : c.Tidy) (predicates : List Predicate) (order : SortOrder)
    (isChange : Bool) :
    (c.purged.change { c.purged with predicates, order } isChange).2 =
        (c.change { c with predicates, order } isChange).2 ∧
      (c.purged.change { c.purged with predicates, order } isChange).1.purged =
        (c.change { c with predicates, order } isChange).1.purged := by
  cases isChange with
  | true => exact ⟨rfl, purged_reset tidy predicates order⟩
  | false =>
    refine ⟨rfl, ?_⟩
    simp [change, purged, List.filter_filter]

section Step

/-- What counts for the present generation does the same to a pager without what is left of earlier
ones. -/
theorem purged_step (tidy : c.Tidy) (queued : c.Queued) (heard : c.heeds event) :
    (c.purged.step event).2 = (c.step event).2 ∧
      (c.purged.step event).1.purged = (c.step event).1.purged := by
  cases event with
  | load => exact purged_load tidy queued
  | sentinel visible => exact purged_sentinel tidy queued visible
  | answer fetch outcome => exact purged_answer tidy heard
  | setPredicates predicates => exact purged_change tidy predicates c.order _
  | setOrder order => exact purged_change tidy c.predicates order _
  | toggle column => exact purged_change tidy c.predicates (c.order.clicked column) _
  | reset => exact ⟨rfl, purged_reset tidy c.predicates c.order⟩

theorem unheeded (deaf : c.heeds event = false) :
    (c.step event).2 = {} ∧ (c.step event).1 = c ∨
      ∃ f ∈ c.openFetches, f.generation ≠ c.generation ∧
        c.step event = c.close f.number (.ok []) := by
  have move := c.happens event
  generalize c.step event = after at move ⊢
  cases move with
  | begins caller asks =>
    rcases asks with ⟨rfl, -⟩ | ⟨rfl, -⟩ <;> cases deaf
  | joins | rests | declines => cases deaf
  | ignores => exact .inl ⟨rfl, rfl⟩
  | drops f outcome isOpen stale => exact .inr ⟨f, isOpen, stale, rfl⟩
  | takes f outcome isOpen current =>
    have heard : c.heeds (.answer f.number outcome) :=
      List.any_eq_true.mpr ⟨f, isOpen, by simpa using current⟩
    rw [heard] at deaf
    cases deaf
  | keeps about | renews about =>
    cases event with
    | load | sentinel | answer => cases about
    | setPredicates | setOrder | toggle | reset => cases deaf

theorem purged_close (tidy : c.Tidy) {f : OpenFetch} (isOpen : f ∈ c.openFetches)
    (stale : f.generation ≠ c.generation) (outcome : Except PageError (List ρ)) :
    (c.close f.number outcome).1.purged = c.purged := by
  have fetches : (c.openFetches.filter (·.number != f.number)).filter
      (·.generation == c.generation) = c.openFetches.filter (·.generation == c.generation) := by
    rw [List.filter_filter]
    refine List.filter_congr fun g isOpen' ↦ ?_
    by_cases same : g.number = f.number
    · rw [tidy.eq_of_number isOpen' isOpen same]
      simp [stale]
    · simp [same]
  -- The fetch that is loading is of the present generation, so this is another one.
  have notLoading : c.loading ≠ some f.number := by
    intro busy
    obtain ⟨g, isOpen', same, current⟩ := tidy.awaited _ busy
    rw [tidy.eq_of_number isOpen' isOpen same] at current
    exact stale current
  have waiters : (c.waiters.filter (·.fetch != f.number)).filter (c.loading == some ·.fetch) =
      c.waiters.filter (c.loading == some ·.fetch) := by
    rw [List.filter_filter]
    refine List.filter_congr fun w _ ↦ ?_
    by_cases same : w.fetch = f.number
    · simp [same, notLoading]
    · simp [same]
  simp only [close, purged, fetches, waiters]

theorem purged_unheeded (tidy : c.Tidy) (deaf : c.heeds event = false) :
    (c.step event).1.purged = c.purged ∧ (c.step event).2.requests = [] := by
  rcases unheeded deaf with ⟨progress, unchanged⟩ | ⟨f, isOpen, stale, closed⟩
  · rw [progress, unchanged]
    exact ⟨rfl, rfl⟩
  · rw [closed]
    exact ⟨purged_close tidy isOpen stale _, rfl⟩

theorem strands_of_finished (deaf : c.heeds event = false) {task : Nat}
    {completion : Completion ρ} (ended : (task, completion) ∈ (c.step event).2.finished) :
    ∃ w, c.Strands w ∧ w.task = task := by
  rcases unheeded deaf with ⟨progress, -⟩ | ⟨f, isOpen, stale, closed⟩
  · rw [progress] at ended
    cases ended
  · rw [closed] at ended
    obtain ⟨w, inside, same⟩ := List.mem_map.mp ended
    obtain ⟨waiting, onThis⟩ := List.mem_filter.mp inside
    cases same
    exact ⟨w, ⟨waiting, f, isOpen, (beq_iff_eq.mp onThis).symm, stale⟩, rfl⟩

theorem strands_of_unheeded (deaf : c.heeds event = false) {w : Waiter}
    (h : (c.step event).1.Strands w) : c.Strands w := by
  rcases unheeded deaf with ⟨-, unchanged⟩ | ⟨f, isOpen, stale, closed⟩
  · rwa [unchanged] at h
  · rw [closed] at h
    obtain ⟨waiting, g, isOpen, same⟩ := h
    exact ⟨List.mem_of_mem_filter waiting, g, List.mem_of_mem_filter isOpen, same⟩

theorem mem_purged_waiters {w : Waiter} :
    w ∈ c.purged.waiters ↔ w ∈ c.waiters ∧ c.loading = some w.fetch := by
  simp [purged]

/-- What counts leaves tasks behind exactly by a change of the generation: those that were waiting
for a fetch of it. -/
theorem strands_heeded (tidy : c.Tidy) (queued : c.Queued) (heard : c.heeds event) {w : Waiter} :
    (c.step event).1.Strands w ↔
      c.Strands w ∨ w ∈ c.purged.waiters ∧ (c.step event).1.generation ≠ c.generation := by
  rw [strands_iff tidy queued, mem_purged_waiters,
    strands_iff (tidy.step event) (queued.step tidy event)]
  have move := c.happens event
  generalize c.step event = after at move ⊢
  cases move with
  | begins caller asks free more =>
    have fresh (old : w ∈ c.waiters) := queued.fetch_ne tidy old
    simp only [beginFetch, List.mem_append, List.mem_singleton, free]
    constructor
    · rintro ⟨old | rfl, other⟩
      · exact .inl ⟨old, by simp⟩
      · exact absurd rfl other
    · rintro (⟨old, -⟩ | ⟨-, changed⟩)
      · exact ⟨.inl old, fun busy ↦ fresh old (Option.some.inj busy).symm⟩
      · exact absurd rfl changed
  | joins fetch busy =>
    simp only [List.mem_append, List.mem_singleton]
    constructor
    · rintro ⟨old | rfl, other⟩
      · exact .inl ⟨old, other⟩
      · exact absurd busy other
    · rintro (⟨old, other⟩ | ⟨-, changed⟩)
      · exact ⟨.inl old, other⟩
      · exact absurd rfl changed
  | rests | declines => simp [finishAtOnce]
  | ignores fetch outcome unknown =>
    obtain ⟨f, isOpen, same⟩ := List.any_eq_true.mp heard
    simp only [Bool.and_eq_true, beq_iff_eq] at same
    exact absurd same.1 (unknown f isOpen)
  | drops f outcome isOpen stale =>
    obtain ⟨g, isOpen', same⟩ := List.any_eq_true.mp heard
    simp only [Bool.and_eq_true, beq_iff_eq] at same
    rw [tidy.eq_of_number isOpen' isOpen same.1] at same
    exact absurd same.2 stale
  | takes f outcome isOpen current =>
    have busy := (tidy.current f isOpen current).1
    simp only [close, takeIn_waiters, takeIn_loading, takeIn_generation, List.mem_filter, busy]
    simp [@eq_comm _ f.number]
  | keeps => simp
  | renews about predicates order changed =>
    by_cases busy : c.loading = some w.fetch <;> simp [reset, busy]

end Step

/-- Whether two pagers differ at most in what is left of earlier generations. -/
structure Alike (c d : Pager ρ) : Prop where
  tidy : c.Tidy
  queued : c.Queued
  tidy' : d.Tidy
  queued' : d.Queued
  same : c.purged = d.purged

namespace Alike

theorem heeds (h : Alike c d) (event : PagerEvent ρ) : d.heeds event = c.heeds event := by
  rw [← heeds_purged d, ← h.same, heeds_purged]

theorem progress (h : Alike c d) (heard : c.heeds event) :
    (c.step event).2 = (d.step event).2 := by
  have heard' : d.heeds event := (h.heeds event).trans heard
  rw [← (purged_step h.tidy h.queued heard).1, h.same, (purged_step h.tidy' h.queued' heard').1]

theorem step (h : Alike c d) (heard : c.heeds event) :
    Alike (c.step event).1 (d.step event).1 where
  tidy := h.tidy.step event
  queued := h.queued.step h.tidy event
  tidy' := h.tidy'.step event
  queued' := h.queued'.step h.tidy' event
  same := by
    have heard' : d.heeds event := (h.heeds event).trans heard
    rw [← (purged_step h.tidy h.queued heard).2, h.same, (purged_step h.tidy' h.queued' heard').2]

theorem skip (h : Alike c d) (deaf : c.heeds event = false) : Alike (c.step event).1 d where
  tidy := h.tidy.step event
  queued := h.queued.step h.tidy event
  tidy' := h.tidy'
  queued' := h.queued'
  same := (purged_unheeded h.tidy deaf).1.trans h.same

theorem run (h : Alike c d) (events : List (PagerEvent ρ)) :
    Alike (c.run events) (d.run (c.noticed events)) := by
  induction events generalizing c d with
  | nil => exact h
  | cons event rest ih =>
    rw [noticed]
    split
    · next heard => exact ih (h.step heard)
    · next deaf => exact ih (h.skip (Bool.not_eq_true _ ▸ deaf))

theorem requests (h : Alike c d) (events : List (PagerEvent ρ)) :
    c.requests events = d.requests (c.noticed events) := by
  induction events generalizing c d with
  | nil => rfl
  | cons event rest ih =>
    rw [noticed, Pager.requests]
    split
    · next heard => rw [Pager.requests, h.progress heard, ih (h.step heard)]
    · next deaf =>
      rw [Bool.not_eq_true] at deaf
      rw [(purged_unheeded h.tidy deaf).2, List.nil_append, ih (h.skip deaf)]

end Alike

/-- Whether a task waits for a fetch of an earlier generation. -/
def Abandons (c : Pager ρ) (task : Nat) : Prop := ∃ w, c.Strands w ∧ w.task = task

/-- Whether it does so at some time during several events. -/
def Stranded (c : Pager ρ) (events : List (PagerEvent ρ)) (task : Nat) : Prop :=
  ∃ past, past <+: events ∧ (c.run past).Abandons task

section Stranded

variable {rest events : List (PagerEvent ρ)} {task : Nat}

theorem stranded_of_abandons (h : c.Abandons task) : c.Stranded events task :=
  ⟨[], List.nil_prefix, h⟩

theorem stranded_nil : c.Stranded [] task ↔ c.Abandons task := by
  simp [Stranded, run]

theorem stranded_cons :
    c.Stranded (event :: rest) task ↔ c.Abandons task ∨ (c.step event).1.Stranded rest task := by
  constructor
  · rintro ⟨past, before, h⟩
    rcases List.prefix_cons_iff.mp before with rfl | ⟨past, rfl, earlier⟩
    · exact .inl h
    · exact .inr ⟨past, earlier, h⟩
  · rintro (h | ⟨past, before, h⟩)
    · exact stranded_of_abandons h
    · exact ⟨event :: past, List.cons_prefix_cons.mpr ⟨rfl, before⟩, h⟩

theorem abandons_heeded (tidy : c.Tidy) (queued : c.Queued) (heard : c.heeds event) (task : Nat) :
    (c.step event).1.Abandons task ↔
      c.Abandons task ∨ (∃ w ∈ c.purged.waiters, w.task = task) ∧
        (c.step event).1.generation ≠ c.generation := by
  simp only [Abandons, strands_heeded tidy queued heard]
  grind

theorem finished_unheeded (deaf : c.heeds event = false) (kept : ¬c.Abandons task) :
    (c.step event).2.finished.filter (·.1 == task) = [] := by
  refine List.filter_eq_nil_iff.mpr ?_
  rintro ⟨other, completion⟩ ended same
  obtain rfl : other = task := by simpa using same
  exact kept (strands_of_finished deaf ended)

namespace Alike

theorem shows {α : Type} (h : Alike c d) (part : Pager ρ → α) : part c.purged = part d.purged :=
  congrArg part h.same

theorem stranded (h : Alike c d) (events : List (PagerEvent ρ)) (task : Nat) :
    c.Stranded events task ∨ d.Abandons task ↔
      d.Stranded (c.noticed events) task ∨ c.Abandons task := by
  induction events generalizing c d with
  | nil =>
    rw [noticed, stranded_nil, stranded_nil, or_comm]
  | cons event rest ih =>
    have laterC : (c.step event).1.Abandons task → (c.step event).1.Stranded rest task :=
      stranded_of_abandons
    rw [noticed, stranded_cons]
    split
    · next heard =>
      have heard' : d.heeds event := (h.heeds event).trans heard
      have after := ih (h.step heard)
      have fromC := abandons_heeded h.tidy h.queued heard task
      have fromD := abandons_heeded h.tidy' h.queued' heard' task
      have generation : c.generation = d.generation := h.shows Pager.generation
      have generation' : (c.step event).1.generation = (d.step event).1.generation :=
        (h.step heard).shows Pager.generation
      rw [← h.same, ← generation, ← generation'] at fromD
      have laterD : (d.step event).1.Abandons task →
          (d.step event).1.Stranded ((c.step event).1.noticed rest) task := stranded_of_abandons
      rw [stranded_cons]
      grind
    · next deaf =>
      rw [Bool.not_eq_true] at deaf
      have after := ih (h.skip deaf)
      have before : (c.step event).1.Abandons task → c.Abandons task :=
        fun ⟨w, strands, same⟩ ↦ ⟨w, strands_of_unheeded deaf strands, same⟩
      tauto

theorem endings (h : Alike c d) (kept : ¬c.Stranded events task) :
    c.endings events task = d.endings (c.noticed events) task := by
  induction events generalizing c d with
  | nil => rfl
  | cons event rest ih =>
    rw [stranded_cons, not_or] at kept
    rw [noticed, endings_cons]
    split
    · next heard => rw [endings_cons, h.progress heard, ih (h.step heard) kept.2]
    · next deaf =>
      rw [Bool.not_eq_true] at deaf
      rw [finished_unheeded deaf kept.1, List.map_nil, List.nil_append, ih (h.skip deaf) kept.2]

end Alike

end Stranded

/-- Whether two pagers show the same. -/
structure SameView (c d : Pager ρ) : Prop where
  generation : c.generation = d.generation
  hasMore : c.hasMore = d.hasMore
  pages : c.pages = d.pages
  items : c.items = d.items
  loading : c.loading = d.loading
  error : c.error = d.error
  order : c.order = d.order
  predicates : c.predicates = d.predicates

theorem Alike.sameView (h : Alike c d) : SameView c d where
  generation := h.shows Pager.generation
  hasMore := h.shows Pager.hasMore
  pages := h.shows Pager.pages
  items := h.shows Pager.items
  loading := h.shows Pager.loading
  error := h.shows Pager.error
  order := h.shows Pager.order
  predicates := h.shows Pager.predicates

/-- Whether two runs of a pager show the same at their ends, with the same requests, and whether
every task ends in the same way in both that never waits for a fetch of an earlier generation. -/
structure Unaffected (start : Pager ρ) (first second : List (PagerEvent ρ)) : Prop where
  view : SameView (start.run first) (start.run second)
  requests : start.requests first = start.requests second
  stranded : ∀ task, start.Stranded first task ↔ start.Stranded second task
  endings : ∀ task, ¬start.Stranded first task →
    start.endings first task = start.endings second task

/-- Late answers are unseen: two runs that differ only in answers to fetches of earlier generations
show the same, with the same requests, and end all tasks in the same way but those that waited for
such a fetch. Every point of a run is the end of a shorter run, so the two agree all along. A task
that waited for such a fetch, if it ends, was to load a page and gets no rows, or ends as one for
which a page was requested. -/
theorem late_answers_unseen {predicates : List Predicate} {order : SortOrder} {size : Int}
    {start : Pager ρ} (created : create? predicates order size = some start) :
    (∀ first second, start.noticed first = start.noticed second →
      start.Unaffected first second) ∧
      ∀ past rest w completion, (start.run past).Strands w →
        (w.task, completion) ∈ (start.run past).finished rest →
          (w.caller = .load → completion = .rows []) ∧
            (w.caller = .sentinel → completion = .requested true) := by
  have tidy := tidy_of_create created
  have queued := queued_of_create created
  have alike : Alike start start := ⟨tidy, queued, tidy, queued, rfl⟩
  constructor
  · intro first second same
    have ends : Alike (start.run first) (start.run second) := by
      have one := alike.run first
      have other := alike.run second
      rw [← same] at other
      exact ⟨one.tidy, one.queued, other.tidy, other.queued, one.same.trans other.same.symm⟩
    have stranded (events : List (PagerEvent ρ)) (task : Nat) :
        start.Stranded events task ↔ start.Stranded (start.noticed events) task := by
      have h := alike.stranded events task
      rwa [or_iff_left_of_imp stranded_of_abandons, or_iff_left_of_imp stranded_of_abandons] at h
    have leftBehind (task : Nat) : start.Stranded first task ↔ start.Stranded second task := by
      rw [stranded first, stranded second, same]
    refine ⟨ends.sameView, ?_, leftBehind, fun task kept ↦ ?_⟩
    · rw [alike.requests first, alike.requests second, same]
    · rw [alike.endings kept, alike.endings (mt (leftBehind task).mpr kept), same]
  · intro past rest w completion strands ended
    have tidy := tidy.run past
    have queued := queued.run (tidy_of_create created) past
    have leaves := leaves_of_strands tidy queued strands
    rw [leaves.ends tidy queued rest ended]
    constructor <;> intro caller <;> rw [caller] <;> rfl

def lateFailure : List (PagerEvent Nat) :=
  [.load, .reset, .load, .answer 0 (.error (.other "down")), .sentinel true, .answer 1 (.ok [7, 8])]

def withoutFailure : List (PagerEvent Nat) :=
  [.load, .reset, .load, .sentinel true, .answer 1 (.ok [7, 8])]

theorem lateFailure_unseen :
    create? [] {} 2 = some ofPairs ∧ ofPairs.noticed lateFailure = ofPairs.noticed withoutFailure ∧
      ofPairs.Unaffected lateFailure withoutFailure ∧
      ∃ w, (ofPairs.run [.load, .reset]).Strands w ∧ w.task = 0 ∧
        ofPairs.endings lateFailure 0 = [.rows []] ∧ ofPairs.endings withoutFailure 0 = [] := by
  have created : create? [] {} 2 = some ofPairs := rfl
  have same : ofPairs.noticed lateFailure = ofPairs.noticed withoutFailure := rfl
  have strands : (ofPairs.run [.load, .reset]).Strands ⟨0, 0, .load⟩ :=
    ⟨List.mem_singleton_self _, ⟨0, 0, ofPairs.nextRequest⟩, List.mem_singleton_self _, rfl,
      Nat.zero_ne_one⟩
  exact ⟨created, same, (late_answers_unseen created).1 _ _ same, _, strands, rfl, rfl, rfl⟩

end Pager

end CallSearch
