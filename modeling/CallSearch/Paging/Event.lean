import CallSearch.Paging.Pager

namespace CallSearch

inductive PagerEvent (ρ : Type) where
  | load
  | sentinel (visible : Bool)
  | answer (fetch : Nat) (outcome : Except FetchFailure (List ρ))
  | setPredicates (predicates : List Predicate)
  | setOrder (order : SortOrder)
  | toggle (column : String)
  | reset

/-- What follows from an event: whether the query changed, if the event could change it, the
requests that are made and the tasks that end. -/
structure Progress (ρ : Type) where
  changed : Option Bool := none
  requests : List PageRequest := []
  finished : List (Nat × Completion ρ) := []

namespace Pager

variable {ρ : Type}

def beginFetch (c : Pager ρ) (caller : Caller) : Pager ρ × Progress ρ :=
  ({ c with
      loading := some c.fetchCount
      fetchCount := c.fetchCount + 1
      taskCount := c.taskCount + 1
      openFetches := c.openFetches ++ [⟨c.fetchCount, c.generation, c.nextRequest⟩]
      waiters := c.waiters ++ [⟨c.taskCount, c.fetchCount, caller⟩] },
    { requests := [c.nextRequest] })

def finishAtOnce (c : Pager ρ) (completion : Completion ρ) : Pager ρ × Progress ρ :=
  ({ c with taskCount := c.taskCount + 1 }, { finished := [(c.taskCount, completion)] })

/-- Begins a task that loads the next page. While a page is being fetched it waits for that one, and
after the last page there is nothing to do. -/
def load (c : Pager ρ) : Pager ρ × Progress ρ :=
  match c.loading with
  | some fetch =>
    ({ c with
        taskCount := c.taskCount + 1
        waiters := c.waiters ++ [⟨c.taskCount, fetch, .load⟩] }, {})
  | none => if c.hasMore then c.beginFetch .load else c.finishAtOnce (.rows [])

/-- Begins a task that loads the next page because the end of the list came into view. It does so
only if there may be one, none is being fetched and the last attempt did not fail. -/
def sentinel (c : Pager ρ) (visible : Bool) : Pager ρ × Progress ρ :=
  if visible && c.hasMore && c.loading.isNone && c.error.isNone then c.beginFetch .sentinel
  else c.finishAtOnce (.requested false)

def completionFor (caller : Caller) (outcome : Except PageError (List ρ)) : Completion ρ :=
  match caller, outcome with
  | .sentinel, _ => .requested true
  | .load, .ok rows => .rows rows
  | .load, .error error => .failed error

/-- Takes the outcome of a fetch of the present generation in. A page that is not full is the
last. -/
def takeIn (c : Pager ρ) (outcome : Except PageError (List ρ)) : Pager ρ :=
  match outcome with
  | .ok rows =>
    { c with
      pages := c.pages ++ [rows]
      error := none
      hasMore := c.hasMore && c.pageSize ≤ rows.length
      loading := none }
  | .error error => { c with error := some error, loading := none }

def close (c : Pager ρ) (fetch : Nat) (outcome : Except PageError (List ρ)) :
    Pager ρ × Progress ρ :=
  ({ c with
      openFetches := c.openFetches.filter (·.number != fetch)
      waiters := c.waiters.filter (·.fetch != fetch) },
    { finished := (c.waiters.filter (·.fetch == fetch)).map fun w =>
        (w.task, completionFor w.caller outcome) })

def answer (c : Pager ρ) (fetch : Nat) (outcome : Except FetchFailure (List ρ)) :
    Pager ρ × Progress ρ :=
  match c.openFetches.find? (·.number == fetch) with
  | none => (c, {})
  | some opened =>
    if opened.generation == c.generation then
      let outcome := outcome.mapError (·.toError opened.request.offset)
      (c.takeIn outcome).close fetch outcome
    else c.close fetch (.ok [])

def change (c changed : Pager ρ) (isChange : Bool) : Pager ρ × Progress ρ :=
  (if isChange then changed.reset else c, { changed := some isChange })

def setOrder (c : Pager ρ) (order : SortOrder) : Pager ρ × Progress ρ :=
  c.change { c with order } (order != c.order)

def setPredicates (c : Pager ρ) (predicates : List Predicate) : Pager ρ × Progress ρ :=
  c.change { c with predicates } (!Predicate.sameAll predicates c.predicates)

def step (c : Pager ρ) : PagerEvent ρ → Pager ρ × Progress ρ
  | .load => c.load
  | .sentinel visible => c.sentinel visible
  | .answer fetch outcome => c.answer fetch outcome
  | .setPredicates predicates => c.setPredicates predicates
  | .setOrder order => c.setOrder order
  | .toggle column => c.setOrder (c.order.clicked column)
  | .reset => (c.reset, {})

end Pager

end CallSearch
