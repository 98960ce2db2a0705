import CallSearch.Proofs.Paging.Journal

namespace CallSearch

namespace WatchedPager

variable {ρ : Type} {w : WatchedPager ρ}

def requestAt (w : WatchedPager ρ) (i : Nat) : PageRequest :=
  ⟨w.pager.predicates, w.pager.order, (w.pager.pages.take i).flatten.length, w.pager.pageSize⟩

/-- What every run keeps between a pager and its journal. -/
structure Accounted (w : WatchedPager ρ) : Prop where
  tidy : w.pager.Tidy
  numbers : w.journal.issued.map OpenFetch.number = List.range w.pager.fetchCount
  pending : w.pager.openFetches = w.journal.pending
  answered : ∀ a ∈ w.journal.replies, a.fetch ∈ w.journal.issued
  once : (w.journal.replies.map (·.fetch.number)).Nodup
  past : ∀ f ∈ w.journal.issued, f.generation ≤ w.pager.generation
  pages : w.pager.pages = (w.journal.filled w.pager.generation).map Reply.rows
  requests : ∀ i a, (w.journal.filled w.pager.generation)[i]? = some a →
    a.fetch.request = w.requestAt i
  error : w.pager.error =
    (w.journal.repliesOf w.pager.generation).getLast?.bind Reply.error?
  retry : ∀ a, (w.journal.repliesOf w.pager.generation).getLast? = some a →
    a.succeeded = false → a.fetch.request = w.pager.nextRequest

theorem accounted_of_create {predicates : List Predicate} {order : SortOrder} {size : Int}
    {c : Pager ρ} (h : Pager.create? predicates order size = some c) :
    Accounted (⟨c, {}⟩ : WatchedPager ρ) := by
  have tidy := Pager.tidy_of_create h
  unfold Pager.create? at h
  split at h
  · obtain rfl := Option.some.inj h
    refine ⟨tidy, rfl, rfl, ?_, List.nodup_nil, ?_, rfl, ?_, rfl, ?_⟩
    · intro a ha
      cases ha
    · intro f hf
      cases hf
    · intro i a hi
      cases hi
    · intro a ha
      cases ha
  · cases h

theorem Accounted.number_lt (h : w.Accounted) {f : OpenFetch} (hf : f ∈ w.journal.issued) :
    f.number < w.pager.fetchCount := by
  have hn : f.number ∈ List.range w.pager.fetchCount := h.numbers ▸ List.mem_map_of_mem hf
  exact List.mem_range.mp hn

theorem Accounted.issued_length (h : w.Accounted) :
    w.journal.issued.length = w.pager.fetchCount := by
  simpa using congrArg List.length h.numbers

theorem Accounted.reply_ne (h : w.Accounted) {f : OpenFetch} (hf : f ∈ w.pager.openFetches) :
    ∀ a ∈ w.journal.replies, a.fetch.number ≠ f.number := by
  rw [h.pending] at hf
  simpa [List.all_eq_true] using (List.mem_filter.mp hf).2

theorem Accounted.issued_of_open (h : w.Accounted) {f : OpenFetch}
    (hf : f ∈ w.pager.openFetches) : f ∈ w.journal.issued := by
  rw [h.pending] at hf
  exact List.mem_of_mem_filter hf

theorem Accounted.find_pending (h : w.Accounted) {f : OpenFetch}
    (hf : f ∈ w.pager.openFetches) :
    w.journal.pending.find? (·.number == f.number) = some f := by
  rw [← h.pending]
  exact h.tidy.find_open hf

theorem Accounted.beginFetch (h : w.Accounted) (caller : Caller) (free : w.pager.loading = none)
    (more : w.pager.hasMore = true) :
    Accounted ⟨(w.pager.beginFetch caller).1,
      w.journal.issue ⟨w.journal.issued.length, w.pager.generation, w.pager.nextRequest⟩⟩ where
  tidy := h.tidy.beginFetch caller free more
  numbers := by
    simp only [Journal.issue, List.map_append, List.map_cons, List.map_nil, h.numbers,
      h.issued_length]
    exact List.range_succ.symm
  pending := by
    rw [Journal.pending_issue, ← h.pending, h.issued_length]
    · rfl
    · intro a ha
      have hlt := h.number_lt (h.answered a ha)
      rw [h.issued_length]
      exact Nat.ne_of_lt hlt
  answered a ha := List.mem_append_left _ (h.answered a ha)
  once := h.once
  past f hf := by
    rcases List.mem_append.mp hf with hf | hf
    · exact h.past f hf
    · rw [List.mem_singleton.mp hf]
      exact Nat.le_refl _
  pages := h.pages
  requests := h.requests
  error := h.error
  retry := h.retry

theorem Accounted.renew (h : w.Accounted) (predicates : List Predicate) (order : SortOrder) :
    Accounted ⟨({ w.pager with predicates, order } : Pager ρ).reset, w.journal⟩ := by
  have hnone : w.journal.repliesOf (w.pager.generation + 1) = [] := by
    refine List.filter_eq_nil_iff.mpr fun a ha ↦ ?_
    have hle := h.past a.fetch (h.answered a ha)
    simp only [beq_iff_eq]
    omega
  have hempty : w.journal.filled (w.pager.generation + 1) = [] := by
    rw [Journal.filled, hnone, List.filter_nil]
  exact {
    tidy := h.tidy.renew predicates order
    numbers := h.numbers
    pending := h.pending
    answered := h.answered
    once := h.once
    past := fun f hf ↦ Nat.le_succ_of_le (h.past f hf)
    pages := by
      change [] = (w.journal.filled (w.pager.generation + 1)).map Reply.rows
      rw [hempty, List.map_nil]
    requests := by
      intro i a hi
      change (w.journal.filled (w.pager.generation + 1))[i]? = some a at hi
      rw [hempty] at hi
      cases hi
    error := by
      change none = (w.journal.repliesOf (w.pager.generation + 1)).getLast?.bind Reply.error?
      rw [hnone]
      rfl
    retry := by
      intro a ha
      change (w.journal.repliesOf (w.pager.generation + 1)).getLast? = some a at ha
      rw [hnone] at ha
      cases ha }

theorem Accounted.pending_close (h : w.Accounted) (f : OpenFetch)
    (reply : Except FetchFailure (List ρ)) (outcome : Except PageError (List ρ)) :
    (w.pager.close f.number outcome).1.openFetches = (w.journal.reply ⟨f, reply⟩).pending := by
  rw [Journal.pending_reply, ← h.pending]
  rfl

theorem Accounted.answered_reply (h : w.Accounted) {f : OpenFetch}
    (hf : f ∈ w.pager.openFetches) (reply : Except FetchFailure (List ρ)) :
    ∀ a ∈ (w.journal.reply ⟨f, reply⟩).replies, a.fetch ∈ w.journal.issued := by
  intro a ha
  rcases List.mem_append.mp ha with ha | ha
  · exact h.answered a ha
  · rw [List.mem_singleton.mp ha]
    exact h.issued_of_open hf

theorem Accounted.once_reply (h : w.Accounted) {f : OpenFetch}
    (hf : f ∈ w.pager.openFetches) (reply : Except FetchFailure (List ρ)) :
    ((w.journal.reply ⟨f, reply⟩).replies.map (·.fetch.number)).Nodup := by
  simp only [Journal.reply, List.map_append, List.map_cons, List.map_nil]
  refine List.nodup_append.mpr ⟨h.once, List.nodup_singleton _, ?_⟩
  intro n hn m hm e
  obtain ⟨a, ha, rfl⟩ := List.mem_map.mp hn
  exact h.reply_ne hf a ha (e.trans (List.mem_singleton.mp hm))

theorem Accounted.close_stale (h : w.Accounted) {f : OpenFetch} (hf : f ∈ w.pager.openFetches)
    (stale : f.generation ≠ w.pager.generation) (reply : Except FetchFailure (List ρ)) :
    Accounted ⟨(w.pager.close f.number (.ok [])).1, w.journal.reply ⟨f, reply⟩⟩ := by
  have hreplies : (w.journal.reply ⟨f, reply⟩).repliesOf w.pager.generation =
      w.journal.repliesOf w.pager.generation := by
    rw [Journal.repliesOf_reply, if_neg stale, List.append_nil]
  have hfilled : (w.journal.reply ⟨f, reply⟩).filled w.pager.generation =
      w.journal.filled w.pager.generation := by
    rw [Journal.filled, hreplies]
    rfl
  exact {
    tidy := h.tidy.close_stale hf stale (.ok [])
    numbers := h.numbers
    pending := h.pending_close f reply (.ok [])
    answered := h.answered_reply hf reply
    once := h.once_reply hf reply
    past := h.past
    pages := by
      change w.pager.pages =
        ((w.journal.reply ⟨f, reply⟩).filled w.pager.generation).map Reply.rows
      rw [hfilled]
      exact h.pages
    requests := by
      intro i a hi
      change ((w.journal.reply ⟨f, reply⟩).filled w.pager.generation)[i]? = some a at hi
      rw [hfilled] at hi
      exact h.requests i a hi
    error := by
      change w.pager.error =
        ((w.journal.reply ⟨f, reply⟩).repliesOf w.pager.generation).getLast?.bind Reply.error?
      rw [hreplies]
      exact h.error
    retry := by
      intro a ha
      change ((w.journal.reply ⟨f, reply⟩).repliesOf w.pager.generation).getLast? = some a at ha
      rw [hreplies] at ha
      exact h.retry a ha }

theorem Accounted.take_error (h : w.Accounted) {f : OpenFetch} (hf : f ∈ w.pager.openFetches)
    (now : f.generation = w.pager.generation) (failure : FetchFailure) :
    Accounted ⟨((w.pager.takeIn (.error (failure.toError f.request.offset))).close f.number
        (.error (failure.toError f.request.offset))).1,
      w.journal.reply ⟨f, .error failure⟩⟩ := by
  have hfilled : (w.journal.reply ⟨f, .error failure⟩).filled w.pager.generation =
      w.journal.filled w.pager.generation := by
    rw [Journal.filled_reply, if_neg (by simp [Reply.succeeded, Except.isOk, Except.toBool]),
      List.append_nil]
  exact {
    tidy := h.tidy.take hf now _
    numbers := h.numbers
    pending := h.pending_close f _ (.error (failure.toError f.request.offset))
    answered := h.answered_reply hf _
    once := h.once_reply hf _
    past := h.past
    pages := by
      change w.pager.pages =
        ((w.journal.reply ⟨f, .error failure⟩).filled w.pager.generation).map Reply.rows
      rw [hfilled]
      exact h.pages
    requests := by
      intro i a hi
      change ((w.journal.reply ⟨f, .error failure⟩).filled w.pager.generation)[i]? = some a at hi
      rw [hfilled] at hi
      exact h.requests i a hi
    error := by
      change some (failure.toError f.request.offset) =
        ((w.journal.reply ⟨f, .error failure⟩).repliesOf w.pager.generation).getLast?.bind
          Reply.error?
      rw [Journal.repliesOf_reply, if_pos now, List.getLast?_concat]
      rfl
    retry := by
      intro a ha _
      change ((w.journal.reply ⟨f, .error failure⟩).repliesOf w.pager.generation).getLast? =
        some a at ha
      rw [Journal.repliesOf_reply, if_pos now, List.getLast?_concat] at ha
      obtain rfl := Option.some.inj ha
      exact (h.tidy.current f hf now).2.1 }

/-- The new page is the last one, and its fetch asked for the rows behind those of the pages before
it. -/
theorem Accounted.take_rows (h : w.Accounted) {f : OpenFetch} (hf : f ∈ w.pager.openFetches)
    (now : f.generation = w.pager.generation) (rows : List ρ) :
    Accounted ⟨((w.pager.takeIn (.ok rows)).close f.number (.ok rows)).1,
      w.journal.reply ⟨f, .ok rows⟩⟩ := by
  have hfilled : (w.journal.reply ⟨f, .ok rows⟩).filled w.pager.generation =
      w.journal.filled w.pager.generation ++ [⟨f, .ok rows⟩] := by
    rw [Journal.filled_reply, if_pos ⟨now, rfl⟩]
  have hlength : w.pager.pages.length = (w.journal.filled w.pager.generation).length := by
    rw [h.pages, List.length_map]
  exact {
    tidy := h.tidy.take hf now _
    numbers := h.numbers
    pending := h.pending_close f _ (.ok rows)
    answered := h.answered_reply hf _
    once := h.once_reply hf _
    past := h.past
    pages := by
      change w.pager.pages ++ [rows] =
        ((w.journal.reply ⟨f, .ok rows⟩).filled w.pager.generation).map Reply.rows
      rw [hfilled, List.map_append, ← h.pages]
      rfl
    requests := by
      intro i a hi
      change ((w.journal.reply ⟨f, .ok rows⟩).filled w.pager.generation)[i]? = some a at hi
      change a.fetch.request = ⟨w.pager.predicates, w.pager.order,
        ((w.pager.pages ++ [rows]).take i).flatten.length, w.pager.pageSize⟩
      rw [hfilled] at hi
      rcases Nat.lt_or_ge i (w.journal.filled w.pager.generation).length with hlt | hge
      · rw [List.getElem?_append_left hlt] at hi
        rw [h.requests i a hi, List.take_append_of_le_length (by omega)]
        rfl
      · rw [List.getElem?_append_right hge, List.getElem?_singleton] at hi
        split at hi
        · obtain rfl := Option.some.inj hi
          rw [List.take_left' (by omega)]
          exact (h.tidy.current f hf now).2.1
        · cases hi
    error := by
      change none = ((w.journal.reply ⟨f, .ok rows⟩).repliesOf w.pager.generation).getLast?.bind
          Reply.error?
      rw [Journal.repliesOf_reply, if_pos now, List.getLast?_concat]
      rfl
    retry := by
      intro a ha failed
      change ((w.journal.reply ⟨f, .ok rows⟩).repliesOf w.pager.generation).getLast? =
        some a at ha
      rw [Journal.repliesOf_reply, if_pos now, List.getLast?_concat] at ha
      obtain rfl := Option.some.inj ha
      cases failed }

theorem Accounted.happens (h : w.Accounted) {event : PagerEvent ρ}
    {after : Pager ρ × Progress ρ} (move : w.pager.Happens event after) :
    Accounted ⟨after.1, w.journal.note w.pager.generation event after.2.requests⟩ := by
  cases move with
  | begins caller asks free more =>
    obtain ⟨rfl, rfl⟩ | ⟨rfl, rfl, -⟩ := asks <;> exact h.beginFetch _ free more
  | joins | rests | declines =>
    exact ⟨⟨h.tidy.numbered, h.tidy.distinct, h.tidy.past, h.tidy.current, h.tidy.awaited,
      h.tidy.full, h.tidy.more, h.tidy.failed⟩, h.numbers, h.pending, h.answered, h.once, h.past,
      h.pages, h.requests, h.error, h.retry⟩
  | ignores fetch outcome unknown =>
    have hnone : w.journal.pending.find? (·.number == fetch) = none := by
      rw [← h.pending]
      simpa using unknown
    rw [Journal.note_answer, hnone]
    exact h
  | drops f outcome isOpen stale =>
    change Accounted ⟨_, w.journal.note _ _ []⟩
    rw [Journal.note_answer, h.find_pending isOpen]
    exact h.close_stale isOpen stale outcome
  | takes f outcome isOpen current =>
    change Accounted ⟨_, w.journal.note _ _ []⟩
    rw [Journal.note_answer, h.find_pending isOpen]
    cases outcome with
    | ok rows => exact h.take_rows isOpen current rows
    | error failure => exact h.take_error isOpen current failure
  | keeps about =>
    rw [Journal.note_change _ about]
    exact h
  | renews about predicates order =>
    change Accounted ⟨_, w.journal.note _ _ []⟩
    rw [Journal.note_change _ about]
    exact h.renew predicates order

theorem Accounted.run (h : w.Accounted) (events : List (PagerEvent ρ)) :
    (w.run events).Accounted := by
  induction events generalizing w with
  | nil => exact h
  | cons event rest ih => exact ih (h.happens (w.pager.happens event))

/-- What a pager promises about its pages, its error and its fetches, by the journal alone. -/
structure Disciplined (w : WatchedPager ρ) : Prop where
  issued_once : (w.journal.issued.map OpenFetch.number).Nodup
  answered_once : (w.journal.replies.map (·.fetch.number)).Nodup
  one_pending : (w.journal.pendingOf w.pager.generation).length ≤ 1
  page_source : ∀ i (h : i < w.pager.pages.length), ∃! a : Reply ρ,
    a ∈ w.journal.replies ∧ a.fetch ∈ w.journal.issued ∧
      a.fetch.generation = w.pager.generation ∧ a.fetch.request = w.requestAt i ∧
      a.outcome = .ok w.pager.pages[i]
  last_page : w.pager.hasMore = false ↔
    ∃ p, w.pager.pages.getLast? = some p ∧ p.length < w.pager.pageSize
  last_reply : w.pager.error ≠ none ↔
    ∃ a, (w.journal.repliesOf w.pager.generation).getLast? = some a ∧ a.succeeded = false
  issues : ∀ event, (w.pager.step event).2.requests ≠ [] →
    w.pager.hasMore = true ∧ w.journal.pendingOf w.pager.generation = []
  retries : ∀ event, ∀ request ∈ (w.pager.step event).2.requests, w.pager.error ≠ none →
    event = .load ∧ request.offset = w.pager.items.length ∧
      ∃ a, (w.journal.repliesOf w.pager.generation).getLast? = some a ∧ request = a.fetch.request
  can_retry : w.pager.error ≠ none → w.journal.pendingOf w.pager.generation = [] →
    (w.pager.step .load).2.requests = [w.pager.nextRequest]

theorem Accounted.pendingOf_eq (h : w.Accounted) :
    w.journal.pendingOf w.pager.generation =
      w.pager.openFetches.filter (·.generation == w.pager.generation) := by
  rw [Journal.pendingOf, h.pending]

theorem Accounted.pendingOf_eq_nil_iff (h : w.Accounted) :
    w.journal.pendingOf w.pager.generation = [] ↔ w.pager.loading = none := by
  rw [h.pendingOf_eq, List.filter_eq_nil_iff]
  constructor
  · intro hnone
    refine Option.eq_none_iff_forall_ne_some.mpr fun n hn ↦ ?_
    obtain ⟨f, hf, -, hg⟩ := h.tidy.awaited n hn
    exact hnone f hf (beq_iff_eq.mpr hg)
  · intro hfree f hf hg
    have hl := (h.tidy.current f hf (beq_iff_eq.mp hg)).1
    rw [hfree] at hl
    cases hl

theorem Accounted.pendingOf_length_le (h : w.Accounted) :
    (w.journal.pendingOf w.pager.generation).length ≤ 1 := by
  rw [h.pendingOf_eq]
  have hsub : (w.pager.openFetches.filter (·.generation == w.pager.generation)).Sublist
      w.pager.openFetches := List.filter_sublist
  have hdistinct := h.tidy.distinct.sublist (hsub.map OpenFetch.number)
  have hcurrent : ∀ f ∈ w.pager.openFetches.filter (·.generation == w.pager.generation),
      w.pager.loading = some f.number := by
    intro f hf
    obtain ⟨hf, hg⟩ := List.mem_filter.mp hf
    exact (h.tidy.current f hf (beq_iff_eq.mp hg)).1
  match hl : w.pager.openFetches.filter (·.generation == w.pager.generation) with
  | [] =>
    rw [hl]
    exact Nat.zero_le _
  | [f] =>
    rw [hl]
    exact Nat.le_refl _
  | f :: g :: rest =>
    rw [hl] at hdistinct hcurrent
    have he := (hcurrent f (by simp)).symm.trans (hcurrent g (by simp))
    simp [Option.some.inj he] at hdistinct

theorem offset_lt {c : Pager ρ} (h : c.Tidy) {i k : Nat} (hik : i < k) (hk : k < c.pages.length) :
    (c.pages.take i).flatten.length < (c.pages.take k).flatten.length := by
  have hi : i < c.pages.length := hik.trans hk
  have hmem : c.pages[i] ∈ c.pages.dropLast := by
    refine List.mem_iff_getElem.mpr ⟨i, ?_, List.getElem_dropLast _⟩
    rw [List.length_dropLast]
    omega
  have hfull := h.full _ hmem
  have hsize := c.pageSize_pos
  have hsplit : c.pages.take k = c.pages.take (i + 1) ++ (c.pages.take k).drop (i + 1) := by
    conv_lhs => rw [← List.take_append_drop (i + 1) (c.pages.take k)]
    rw [List.take_take, Nat.min_eq_left hik]
  have hnext : (c.pages.take (i + 1)).flatten.length =
      (c.pages.take i).flatten.length + c.pages[i].length := by
    rw [List.take_succ_eq_append_getElem hi, List.flatten_append, List.length_append]
    simp
  rw [hsplit, List.flatten_append, List.length_append]
  omega

theorem Accounted.page_source (h : w.Accounted) (i : Nat) (hi : i < w.pager.pages.length) :
    ∃! a : Reply ρ, a ∈ w.journal.replies ∧ a.fetch ∈ w.journal.issued ∧
      a.fetch.generation = w.pager.generation ∧ a.fetch.request = w.requestAt i ∧
      a.outcome = .ok w.pager.pages[i] := by
  have hlength : w.pager.pages.length = (w.journal.filled w.pager.generation).length := by
    rw [h.pages, List.length_map]
  have hsome := List.getElem?_eq_getElem (hlength ▸ hi)
  have hmem := Journal.mem_filled.mp (List.getElem_mem (hlength ▸ hi))
  have hrows : w.pager.pages[i] = (w.journal.filled w.pager.generation)[i].rows := by
    simp only [h.pages, List.getElem_map]
  refine ⟨_, ⟨hmem.1, h.answered _ hmem.1, hmem.2.1, h.requests i _ hsome, ?_⟩, ?_⟩
  · rw [hrows]
    exact Reply.outcome_of_succeeded hmem.2.2
  · rintro b ⟨hb, -, hg, hrequest, hok⟩
    have hb' : b ∈ w.journal.filled w.pager.generation := by
      refine Journal.mem_filled.mpr ⟨hb, hg, ?_⟩
      rw [Reply.succeeded, hok]
      rfl
    obtain ⟨k, hk, rfl⟩ := List.getElem_of_mem hb'
    have hoffset : (w.pager.pages.take k).flatten.length =
        (w.pager.pages.take i).flatten.length := by
      have he := (h.requests k _ (List.getElem?_eq_getElem hk)).symm.trans hrequest
      exact congrArg PageRequest.offset he
    have hki : k = i := by
      rcases Nat.lt_trichotomy k i with hlt | he | hgt
      · have := offset_lt h.tidy hlt hi
        omega
      · exact he
      · have := offset_lt h.tidy hgt (hlength ▸ hk)
        omega
    subst hki
    rfl

theorem hasMore_eq_false_iff {c : Pager ρ} (h : c.Tidy) :
    c.hasMore = false ↔ ∃ p, c.pages.getLast? = some p ∧ p.length < c.pageSize := by
  rw [h.more]
  constructor
  · intro hshort
    obtain ⟨p, hp, hlt⟩ := List.all_eq_false.mp hshort
    have hq := List.getLast?_eq_some_getLast (List.ne_nil_of_mem hp)
    obtain ⟨front, hfront⟩ := List.getLast?_eq_some_iff.mp hq
    refine ⟨_, hq, ?_⟩
    have hfull := h.full p
    rw [hfront] at hp hfull
    rcases List.mem_append.mp hp with hp | hp
    · exact absurd (hfull (by simpa using hp)) (by simpa using hlt)
    · rw [List.mem_singleton.mp hp] at hlt
      simpa using hlt
  · rintro ⟨p, hp, hlt⟩
    exact List.all_eq_false.mpr ⟨p, List.mem_of_getLast? hp, by simpa using hlt⟩

theorem Accounted.error_ne_none_iff (h : w.Accounted) :
    w.pager.error ≠ none ↔
      ∃ a, (w.journal.repliesOf w.pager.generation).getLast? = some a ∧ a.succeeded = false := by
  rw [h.error]
  cases (w.journal.repliesOf w.pager.generation).getLast? with
  | none => simp
  | some a => simp [Reply.error?_eq_none_iff]

/-- Whatever a store answers, and in whatever order loads, views of the end, answers and changes of
the query come, a pager keeps its discipline. -/
theorem disciplined_run {predicates : List Predicate} {order : SortOrder} {size : Int}
    {start : Pager ρ} (created : Pager.create? predicates order size = some start)
    (events : List (PagerEvent ρ)) :
    ((⟨start, {}⟩ : WatchedPager ρ).run events).Disciplined := by
  have h := (accounted_of_create created).run events
  generalize (⟨start, {}⟩ : WatchedPager ρ).run events = w at h
  exact {
    issued_once := h.numbers ▸ List.nodup_range
    answered_once := h.once
    one_pending := h.pendingOf_length_le
    page_source := h.page_source
    last_page := hasMore_eq_false_iff h.tidy
    last_reply := h.error_ne_none_iff
    issues := by
      intro event asks
      obtain ⟨free, more, -, -⟩ := (w.pager.happens event).of_requests asks
      exact ⟨more, h.pendingOf_eq_nil_iff.mpr free⟩
    retries := by
      intro event request hr failed
      obtain ⟨-, -, who, only⟩ :=
        (w.pager.happens event).of_requests (List.ne_nil_of_mem hr)
      rw [only, List.mem_singleton] at hr
      subst hr
      obtain ⟨a, hlast, ha⟩ := h.error_ne_none_iff.mp failed
      refine ⟨?_, rfl, a, hlast, (h.retry a hlast ha).symm⟩
      rcases who with load | ⟨-, quiet⟩
      · exact load
      · exact absurd quiet failed
    can_retry := by
      intro failed idle
      have free := h.pendingOf_eq_nil_iff.mp idle
      have more := h.tidy.failed failed
      simp [Pager.step, Pager.load, free, more, Pager.beginFetch] }

def lateAnswer : List (PagerEvent Nat) :=
  [.load, .answer 0 (.error (.other "down")), .sentinel true, .load, .reset, .load,
   .answer 1 (.ok [1]), .answer 2 (.ok [5, 6]), .sentinel true, .answer 3 (.ok [7])]

theorem disciplined_lateAnswer :
    Pager.create? [] {} 2 = some .ofPairs ∧
      ((⟨.ofPairs, {}⟩ : WatchedPager Nat).run lateAnswer).Disciplined := by
  have created : Pager.create? [] {} 2 = some .ofPairs := rfl
  exact ⟨created, disciplined_run created lateAnswer⟩

end WatchedPager

end CallSearch
