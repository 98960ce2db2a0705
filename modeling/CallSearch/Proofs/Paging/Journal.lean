import CallSearch.Proofs.Paging.Run
import Mathlib.Data.List.Range

namespace CallSearch

variable {ρ : Type}

/-- An answered fetch with its outcome. -/
structure Reply (ρ : Type) where
  fetch : OpenFetch
  outcome : Except FetchFailure (List ρ)

namespace Reply

def succeeded (a : Reply ρ) : Bool := a.outcome.isOk

def rows (a : Reply ρ) : List ρ := a.outcome.toOption.getD []

def error? (a : Reply ρ) : Option PageError :=
  match a.outcome with
  | .ok _ => none
  | .error failure => some (failure.toError a.fetch.request.offset)

theorem outcome_of_succeeded {a : Reply ρ} (h : a.succeeded = true) : a.outcome = .ok a.rows := by
  rcases a with ⟨f, _ | rows⟩
  · simp [succeeded, Except.isOk, Except.toBool] at h
  · rfl

theorem error?_eq_none_iff {a : Reply ρ} : a.error? = none ↔ a.succeeded = true := by
  rcases a with ⟨f, _ | rows⟩ <;> simp [error?, succeeded, Except.isOk, Except.toBool]

end Reply

/-- What passed between a pager and its store, oldest first. -/
structure Journal (ρ : Type) where
  issued : List OpenFetch := []
  replies : List (Reply ρ) := []

namespace Journal

/-- The issued fetches that were not answered yet. -/
def pending (j : Journal ρ) : List OpenFetch :=
  j.issued.filter fun f ↦ j.replies.all fun a ↦ a.fetch.number != f.number

def pendingOf (j : Journal ρ) (generation : Nat) : List OpenFetch :=
  j.pending.filter (·.generation == generation)

def repliesOf (j : Journal ρ) (generation : Nat) : List (Reply ρ) :=
  j.replies.filter (·.fetch.generation == generation)

/-- The replies with rows to fetches of a generation. -/
def filled (j : Journal ρ) (generation : Nat) : List (Reply ρ) :=
  (j.repliesOf generation).filter Reply.succeeded

def issue (j : Journal ρ) (f : OpenFetch) : Journal ρ := { j with issued := j.issued ++ [f] }

def reply (j : Journal ρ) (a : Reply ρ) : Journal ρ := { j with replies := j.replies ++ [a] }

/-- The journal after an event by which a pager of some generation makes some requests. A fetch is
numbered by those before it, and only the first answer to it counts. -/
def note (j : Journal ρ) (generation : Nat) (event : PagerEvent ρ) (requests : List PageRequest) :
    Journal ρ :=
  requests.foldl (fun j request ↦ j.issue ⟨j.issued.length, generation, request⟩) <|
    match event with
    | .answer fetch outcome =>
      ((j.pending.find? (·.number == fetch)).map (j.reply ⟨·, outcome⟩)).getD j
    | _ => j

variable {j : Journal ρ}

theorem note_change (generation : Nat) {event : PagerEvent ρ} (h : event.isChange = true) :
    j.note generation event [] = j := by
  cases event with
  | load | sentinel | answer => cases h
  | setPredicates | setOrder | toggle | reset => rfl

theorem note_answer {fetch : Nat} (generation : Nat) (outcome : Except FetchFailure (List ρ)) :
    j.note generation (.answer fetch outcome) [] =
      ((j.pending.find? (·.number == fetch)).map (j.reply ⟨·, outcome⟩)).getD j := rfl

theorem pending_issue {f : OpenFetch} (fresh : ∀ a ∈ j.replies, a.fetch.number ≠ f.number) :
    (j.issue f).pending = j.pending ++ [f] := by
  have hnew : (j.replies.all fun a ↦ a.fetch.number != f.number) = true := by
    simpa [List.all_eq_true] using fresh
  simp only [pending, issue, List.filter_append, List.filter_cons, List.filter_nil, hnew, if_true]

theorem pending_reply (a : Reply ρ) :
    (j.reply a).pending = j.pending.filter (·.number != a.fetch.number) := by
  simp only [pending, reply, List.filter_filter, List.all_append, List.all_cons, List.all_nil,
    Bool.and_true]
  refine List.filter_congr fun f _ ↦ ?_
  rw [Bool.and_comm, bne_comm]

theorem repliesOf_reply (a : Reply ρ) (generation : Nat) :
    (j.reply a).repliesOf generation = j.repliesOf generation ++
      if a.fetch.generation = generation then [a] else [] := by
  by_cases h : a.fetch.generation = generation <;> simp [repliesOf, reply, h]

theorem filled_reply (a : Reply ρ) (generation : Nat) :
    (j.reply a).filled generation = j.filled generation ++
      if a.fetch.generation = generation ∧ a.succeeded = true then [a] else [] := by
  by_cases h : a.fetch.generation = generation <;> by_cases h' : a.succeeded <;>
    simp [filled, repliesOf_reply, h, h']

theorem mem_filled {a : Reply ρ} {generation : Nat} :
    a ∈ j.filled generation ↔
      a ∈ j.replies ∧ a.fetch.generation = generation ∧ a.succeeded = true := by
  simp only [filled, repliesOf, List.mem_filter, beq_iff_eq, and_assoc]

end Journal

/-- A pager with its journal. -/
structure WatchedPager (ρ : Type) where
  pager : Pager ρ
  journal : Journal ρ := {}

namespace WatchedPager

def step (w : WatchedPager ρ) (event : PagerEvent ρ) : WatchedPager ρ where
  pager := (w.pager.step event).1
  journal := w.journal.note w.pager.generation event (w.pager.step event).2.requests

def run (w : WatchedPager ρ) (events : List (PagerEvent ρ)) : WatchedPager ρ :=
  events.foldl step w

end WatchedPager

end CallSearch
