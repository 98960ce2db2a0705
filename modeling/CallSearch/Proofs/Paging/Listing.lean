import CallSearch.Proofs.Paging.Run

namespace CallSearch

variable {ρ : Type}

/-- The rows that a store holds for each query. -/
abbrev Listing (ρ : Type) := List Predicate → SortOrder → List ρ

namespace Listing

def window (listing : Listing ρ) (request : PageRequest) : List ρ :=
  ((listing request.predicates request.order).drop request.offset).take request.limit

/-- Whether an event tells a pager nothing false about a listing: a fetch is answered with the rows
it asks for or with a failure. -/
def Honest (listing : Listing ρ) (c : Pager ρ) : PagerEvent ρ → Prop
  | .answer fetch (.ok rows) =>
    ∀ f ∈ c.openFetches, f.number = fetch → rows = listing.window f.request
  | _ => True

/-- Whether all events of a run are honest where they happen. -/
def HonestRun (listing : Listing ρ) (c : Pager ρ) : List (PagerEvent ρ) → Prop
  | [] => True
  | event :: rest => listing.Honest c event ∧ listing.HonestRun (c.step event).1 rest

section Decide

variable [DecidableEq ρ]

instance (listing : Listing ρ) (c : Pager ρ) (event : PagerEvent ρ) :
    Decidable (listing.Honest c event) :=
  match event with
  | .answer fetch (.ok rows) =>
    inferInstanceAs (Decidable
      (∀ f ∈ c.openFetches, f.number = fetch → rows = listing.window f.request))
  | .answer _ (.error _) | .load | .sentinel _ | .setPredicates _ | .setOrder _ | .toggle _
  | .reset => isTrue trivial

instance decidableHonestRun (listing : Listing ρ) :
    (c : Pager ρ) → (events : List (PagerEvent ρ)) → Decidable (listing.HonestRun c events)
  | _, [] => isTrue trivial
  | c, event :: rest =>
    have := decidableHonestRun listing (c.step event).1 rest
    inferInstanceAs (Decidable (_ ∧ _))

end Decide

/-- Whether the rows of a pager are the first rows of its query, and all of them if there are no
more. -/
structure Covers (listing : Listing ρ) (c : Pager ρ) : Prop where
  start : c.items <+: listing c.predicates c.order
  whole : c.hasMore = false → c.items = listing c.predicates c.order

variable {listing : Listing ρ} {c : Pager ρ}

theorem covers_of_create {predicates : List Predicate} {order : SortOrder} {size : Int}
    (h : Pager.create? predicates order size = some c) : listing.Covers c := by
  unfold Pager.create? at h
  split at h
  · obtain rfl := Option.some.inj h
    exact ⟨List.nil_prefix, fun hm ↦ by simp at hm⟩
  · simp at h

theorem covers_reset : listing.Covers c.reset :=
  ⟨List.nil_prefix, fun hm ↦ by simp [Pager.reset] at hm⟩

/-- Rows are added only behind those that are there, because the fetch that is taken in asked for
just the rows that follow. -/
theorem Covers.take (h : listing.Covers c) (tidy : c.Tidy) {f : OpenFetch}
    (isOpen : f ∈ c.openFetches) (current : f.generation = c.generation) {rows : List ρ}
    (hrows : rows = listing.window f.request) :
    listing.Covers ((c.takeIn (.ok rows)).close f.number (.ok rows)).1 := by
  obtain ⟨-, hrequest, more⟩ := tidy.current f isOpen current
  obtain ⟨rest, hrest⟩ := h.start
  have hpage : rows = rest.take c.pageSize := by
    rw [hrows, hrequest, window, Pager.nextRequest, ← hrest, List.drop_left]
  have hitems : ((c.takeIn (.ok rows)).close f.number (.ok rows)).1.items = c.items ++ rows := by
    simp [Pager.items, Pager.takeIn, Pager.close]
  constructor
  · rw [hitems, hpage]
    change c.items ++ rest.take c.pageSize <+: listing c.predicates c.order
    rw [← hrest]
    exact (List.prefix_append_right_inj _).mpr (List.take_prefix _ _)
  · intro last
    have hshort : rows.length < c.pageSize := by
      simpa [Pager.takeIn, Pager.close, more] using last
    have hall : rest.length ≤ c.pageSize := by
      rw [hpage, List.length_take] at hshort
      omega
    rw [hitems, hpage, List.take_of_length_le hall]
    exact hrest

theorem Covers.happens {event : PagerEvent ρ} {after : Pager ρ × Progress ρ}
    (move : c.Happens event after) (h : listing.Covers c) (tidy : c.Tidy)
    (honest : listing.Honest c event) : listing.Covers after.1 := by
  cases move with
  | begins | joins | rests | declines | drops => exact ⟨h.start, h.whole⟩
  | ignores | keeps => exact h
  | renews => exact covers_reset
  | takes f outcome isOpen current =>
    cases outcome with
    | ok rows => exact h.take tidy isOpen current (honest f isOpen rfl)
    | error e => exact ⟨h.start, h.whole⟩

theorem Covers.run (h : listing.Covers c) (tidy : c.Tidy) {events : List (PagerEvent ρ)}
    (honest : listing.HonestRun c events) : listing.Covers (c.run events) := by
  induction events generalizing c with
  | nil => exact h
  | cons event rest ih =>
    exact ih (h.happens (c.happens event) tidy honest.1) (tidy.step event) honest.2

/-- In every state that a pager over a fixed listing can reach, no row is lost, repeated, out of
order or of an older query, and a pager without more rows has them all. -/
theorem covers_of_honestRun (listing : Listing ρ) {predicates : List Predicate} {order : SortOrder}
    {size : Int} {start : Pager ρ} (created : Pager.create? predicates order size = some start)
    (events : List (PagerEvent ρ)) (honest : listing.HonestRun start events) :
    (start.run events).items <+:
        listing (start.run events).predicates (start.run events).order ∧
      ((start.run events).hasMore = false →
        (start.run events).items = listing (start.run events).predicates (start.run events).order) :=
  have h := (covers_of_create created).run (Pager.tidy_of_create created) honest
  ⟨h.start, h.whole⟩

def twoQueries : Listing Nat := fun predicates _ ↦ if predicates.isEmpty then [1, 2, 3] else [7, 8]

def changedQuery : List (PagerEvent Nat) :=
  [.load, .setPredicates [.owner "a"], .load, .answer 0 (.ok [1, 2]), .sentinel true,
   .answer 1 (.ok [7, 8]), .load, .answer 2 (.error (.other "down")), .load, .answer 3 (.ok [])]

theorem covers_changedQuery :
    Pager.create? [] {} 2 = some Pager.ofPairs ∧
      twoQueries.HonestRun Pager.ofPairs changedQuery ∧
      (Pager.ofPairs.run changedQuery).hasMore = false ∧
      (Pager.ofPairs.run changedQuery).items = [7, 8] := by
  have created : Pager.create? [] {} 2 = some Pager.ofPairs := rfl
  have honest : twoQueries.HonestRun Pager.ofPairs changedQuery := by decide
  have last : (Pager.ofPairs.run changedQuery).hasMore = false := by decide
  obtain ⟨-, whole⟩ := covers_of_honestRun twoQueries created changedQuery honest
  exact ⟨created, honest, last, whole last⟩

end Listing

end CallSearch
