import CallSearch.Predicate.Basic
import CallSearch.Predicate.Sort

namespace CallSearch

structure PageError where
  text? : Option String
  offset : Option Int
deriving DecidableEq

def PageError.message? (error : PageError) : Option String :=
  error.text?.map fun text =>
    match error.offset with
    | some offset => text ++ " (offset=" ++ toString offset ++ ")"
    | none => text

inductive FetchFailure where
  | page (error : PageError)
  | other (text : String)

def FetchFailure.toError (offset : Nat) : FetchFailure → PageError
  | .page error => error
  | .other text => ⟨some text, some offset⟩

structure PageRequest where
  predicates : List Predicate
  order : SortOrder
  offset : Nat
  limit : Nat

structure OpenFetch where
  number : Nat
  generation : Nat
  request : PageRequest

inductive Caller where
  | load
  | sentinel
deriving DecidableEq

structure Waiter where
  task : Nat
  fetch : Nat
  caller : Caller

inductive Completion (ρ : Type) where
  | rows (rows : List ρ)
  | requested (answer : Bool)
  | failed (error : PageError)

/-- A query with the pages that were fetched of it. `loading` is the open fetch of the present
generation. -/
structure Pager (ρ : Type) where
  pageSize : Nat
  pageSize_pos : 0 < pageSize
  predicates : List Predicate
  order : SortOrder
  generation : Nat := 0
  hasMore : Bool := true
  error : Option PageError := none
  pages : List (List ρ) := []
  loading : Option Nat := none
  fetchCount : Nat := 0
  taskCount : Nat := 0
  openFetches : List OpenFetch := []
  waiters : List Waiter := []

namespace Pager

variable {ρ : Type}

def noPageSize : String := "page_size must be positive"

def create? (predicates : List Predicate) (order : SortOrder) (pageSize : Int) :
    Option (Pager ρ) :=
  if h : 0 < pageSize.toNat then
    some { pageSize := pageSize.toNat, pageSize_pos := h, predicates, order }
  else none

def items (c : Pager ρ) : List ρ := c.pages.flatten

def nextRequest (c : Pager ρ) : PageRequest :=
  ⟨c.predicates, c.order, c.items.length, c.pageSize⟩

/-- The pager without pages, in a new generation. Open fetches stay open, but nothing waits for
their rows any more. -/
def reset (c : Pager ρ) : Pager ρ :=
  { c with
    generation := c.generation + 1
    pages := []
    hasMore := true
    error := none
    loading := none }

end Pager

end CallSearch
