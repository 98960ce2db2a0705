import CallSearch.Proofs.Double.Order
import CallSearch.TimedCache

namespace CallSearch

section Clock

variable {m n k : Number} {x : Double} {q : Place} {since since' now lifetime seconds : Number}

namespace Number

def asReal : Number → Double
  | .int n => .ofInt n
  | .real x => x

/-- Times of one clock that does not go back. Once it shows floating point numbers, it goes on doing
so. -/
def NotAfter : Number → Number → Prop
  | .int m, .int n => m ≤ n
  | m, .real y => ∀ q, y.place? = some q → ∃ p, m.asReal.place? = some p ∧ p ≤ q
  | .real _, .int _ => False

theorem notAfter_real (h : ∀ q, x.place? = some q → ∃ p, m.asReal.place? = some p ∧ p ≤ q) :
    m.NotAfter (.real x) := by
  cases m <;> exact h

theorem NotAfter.places (h : m.NotAfter n) (hq : n.asReal.place? = some q) :
    ∃ p, m.asReal.place? = some p ∧ p ≤ q := by
  cases n with
  | real y => cases m <;> exact h q hq
  | int n => cases m with
    | real x => exact h.elim
    | int m =>
      cases (Double.place?_ofInt n).symm.trans hq
      refine ⟨_, Double.place?_ofInt m, Double.roundedPlace_mono ?_⟩
      exact Int.mul_le_mul_of_nonneg_right h (Int.natCast_nonneg _)

theorem NotAfter.refl (n : Number) : n.NotAfter n := by
  cases n with
  | int n => exact Int.le_refl n
  | real x => exact fun q hq ↦ ⟨q, hq, le_rfl⟩

theorem NotAfter.trans (h : m.NotAfter n) (h' : n.NotAfter k) : m.NotAfter k := by
  cases k with
  | real z =>
    refine notAfter_real fun q hq ↦ ?_
    obtain ⟨r, hr, below⟩ := NotAfter.places (n := .real z) h' hq
    obtain ⟨p, hp, below'⟩ := h.places hr
    exact ⟨p, hp, below'.trans below⟩
  | int k => cases n with
    | real y => exact False.elim h'
    | int n => cases m with
      | real x => exact h.elim
      | int m => exact Int.le_trans h h'

theorem asReal_nonneg (h : (int 0).le n) : ∃ q, n.asReal.place? = some q ∧ .inside 0 ≤ q := by
  obtain ⟨_, q, hzero, hq, below⟩ := places_of_le h
  cases hzero
  rw [Int.zero_mul] at below
  cases n with
  | real x => exact ⟨q, hq, below⟩
  | int n =>
    cases hq
    refine ⟨_, Double.place?_ofInt n, ?_⟩
    rw [← Double.roundedPlace_zero]
    exact Double.roundedPlace_mono (Place.inside_le_inside.mp below)

theorem notAfter_add (h : (int 0).le seconds) (now : Number) : now.NotAfter (now.add seconds) := by
  have real (sum : now.add seconds = .real (now.asReal.add seconds.asReal)) :
      now.NotAfter (now.add seconds) := by
    rw [sum]
    refine notAfter_real fun s hs ↦ ?_
    rw [Double.place?_add] at hs
    obtain ⟨p, hp, hs⟩ := Option.bind_eq_some_iff.mp hs
    obtain ⟨q, hq, hs⟩ := Option.bind_eq_some_iff.mp hs
    obtain ⟨q', hq', nonneg⟩ := asReal_nonneg h
    cases hq.symm.trans hq'
    refine ⟨p, hp, Place.le_sum? (fun units inside ↦ ?_) nonneg hs⟩
    rw [inside, Double.roundedPlace_eq (inside ▸ hp)]
  cases now with
  | real x => cases seconds <;> exact real rfl
  | int n => cases seconds with
    | real y => exact real rfl
    | int k =>
      obtain ⟨_, _, hp, hq, below⟩ := places_of_le h
      cases hp
      cases hq
      have positive : (0 : ℤ) < Double.unitsPerOne := Int.natCast_pos.mpr Double.unitsPerOne_pos
      have moved := Int.le_of_mul_le_mul_right (Place.inside_le_inside.mp below) positive
      exact Int.le_add_of_nonneg_right moved

theorem asReal_neg (n : Number) : n.neg.asReal.place? = n.asReal.place?.map Place.opposite := by
  cases n with
  | real x => exact Double.place?_neg x
  | int n =>
    rw [neg, asReal, asReal, Double.place?_ofInt, Double.place?_ofInt, Int.neg_mul,
      Double.roundedPlace_neg]
    rfl

theorem add_real (x : Double) (n : Number) : (real x).add n = .real (x.add n.asReal) := by
  cases n <;> rfl

theorem elapsed_antitone {p : Place} (h : m.NotAfter n) (h' : n.NotAfter (.real x))
    (hp : ((real x).add m.neg).place? = some p) (below : p < .top) :
    ∃ q, ((real x).add n.neg).place? = some q ∧ q ≤ p := by
  rw [add_real, place?, Double.place?_add, asReal_neg] at hp ⊢
  obtain ⟨now, hnow, hp⟩ := Option.bind_eq_some_iff.mp hp
  obtain ⟨late, hlate, -⟩ := NotAfter.places h' hnow
  obtain ⟨early, hearly, earlier⟩ := h.places hlate
  rw [hnow, Option.bind_some, hlate, Option.map_some, Option.bind_some]
  rw [hearly, Option.map_some, Option.bind_some] at hp
  exact Place.sum?_mono hp below (Place.opposite_le_opposite earlier)

end Number

theorem withinLifetime_of_notAfter (h : since.NotAfter since') (h' : since'.NotAfter now)
    (fresh : withinLifetime lifetime since now) : withinLifetime lifetime since' now := by
  refine (Bool.or_eq_true _ _).mpr (((Bool.or_eq_true _ _).mp fresh).imp_right fun young ↦ ?_)
  obtain ⟨passed, limit, hpassed, hlimit, below⟩ := Number.places_of_lt young
  obtain ⟨shorter, hshorter, le⟩ :
      ∃ shorter, (now.add since'.neg).place? = some shorter ∧ shorter ≤ passed := by
    cases now with
    | real y => exact Number.elapsed_antitone h h' hpassed (below.trans_le (Place.le_top _))
    | int n => cases since' with
      | real => exact False.elim h'
      | int k' => cases since with
        | real => exact False.elim h
        | int k =>
          cases hpassed
          refine ⟨_, rfl, Place.inside_le_inside.mpr ?_⟩
          refine Int.mul_le_mul_of_nonneg_right ?_ (Int.natCast_nonneg _)
          exact Int.add_le_add_left (Int.neg_le_neg h) n
  exact (Number.lt_iff hshorter hlimit).mpr (le.trans_lt below)

end Clock

inductive Deed (κ ν : Type) where
  | put (key : κ) (value : ν) (since : Number)
  | remove (test : κ → Bool)

namespace Deed

variable {κ ν : Type} {deeds : List (Deed κ ν)} {now : Number}

def since? : Deed κ ν → Option Number
  | put _ _ since => some since
  | remove _ => none

/-- The times of deeds, from now on back, are times of one clock. -/
def Ordered (now : Number) (deeds : List (Deed κ ν)) : Prop :=
  (now :: deeds.filterMap since?).Pairwise fun later earlier ↦ earlier.NotAfter later

theorem Ordered.wait (ordered : Ordered now deeds) {seconds : Number}
    (forward : (Number.int 0).le seconds) : Ordered (now.add seconds) deeds := by
  obtain ⟨before, ordered⟩ := List.pairwise_cons.mp ordered
  refine List.pairwise_cons.mpr ⟨fun since among ↦ ?_, ordered⟩
  exact (before since among).trans (Number.notAfter_add forward now)

theorem Ordered.put (ordered : Ordered now deeds) (key : κ) (value : ν) :
    Ordered now (.put key value now :: deeds) := by
  refine List.pairwise_cons.mpr ⟨fun since among ↦ ?_, ordered⟩
  rcases List.mem_cons.mp among with rfl | before
  · exact Number.NotAfter.refl _
  · exact (List.pairwise_cons.mp ordered).1 since before

theorem Ordered.tail {deed : Deed κ ν} (ordered : Ordered now (deed :: deeds)) :
    Ordered now deeds :=
  ordered.sublist (((List.sublist_cons_self deed deeds).filterMap since?).cons_cons now)

variable [BEq κ] {key : κ} {lifetime : Number}

/-- What was put in under a key last and was not removed since. The last deed comes first. -/
def latest? (key : κ) : List (Deed κ ν) → Option (Timed ν)
  | [] => none
  | put key' value since :: earlier =>
    if key' == key then some ⟨value, since⟩ else latest? key earlier
  | remove test :: earlier => if test key then none else latest? key earlier

/-- All that was put in under a key within a lifetime and was not removed since, the last first. -/
def freshValues (lifetime now : Number) (key : κ) : List (Deed κ ν) → List ν
  | [] => []
  | put key' value since :: earlier =>
    if key' == key && withinLifetime lifetime since now then
      value :: freshValues lifetime now key earlier
    else freshValues lifetime now key earlier
  | remove test :: earlier => if test key then [] else freshValues lifetime now key earlier

theorem exists_of_freshValues {value : ν} (fresh : value ∈ freshValues lifetime now key deeds) :
    ∃ since ∈ deeds.filterMap since?, withinLifetime lifetime since now := by
  induction deeds with
  | nil => cases fresh
  | cons deed earlier ih =>
    have later (h : value ∈ freshValues lifetime now key earlier) :
        ∃ since ∈ (deed :: earlier).filterMap since?, withinLifetime lifetime since now := by
      obtain ⟨since, among, within⟩ := ih h
      exact ⟨since, ((List.sublist_cons_self deed earlier).filterMap since?).subset among, within⟩
    cases deed with
    | put key' value' since =>
      rw [freshValues] at fresh
      split_ifs at fresh with young
      · exact ⟨since, List.mem_cons_self, ((Bool.and_eq_true _ _).mp young).2⟩
      · exact later fresh
    | remove test =>
      rw [freshValues] at fresh
      split_ifs at fresh
      · cases fresh
      · exact later fresh

/-- On a clock that does not go back, the last of what is fresh is the last of all if that is
fresh, and nothing is fresh otherwise. -/
theorem head?_freshValues (ordered : Ordered now deeds) :
    (freshValues lifetime now key deeds).head? = (latest? key deeds).bind fun entry ↦
      if withinLifetime lifetime entry.since now then some entry.value else none := by
  induction deeds with
  | nil => rfl
  | cons deed earlier ih =>
    cases deed with
    | put key' value since =>
      rw [freshValues, latest?]
      by_cases same : key' == key
      · by_cases young : withinLifetime lifetime since now
        · simp [same, young]
        · -- What was put in before is not fresh either.
          have none : freshValues lifetime now key earlier = [] := by
            refine List.eq_nil_iff_forall_not_mem.mpr fun old fresh ↦ young ?_
            obtain ⟨since', among, within⟩ := exists_of_freshValues fresh
            obtain ⟨before, ordered⟩ := List.pairwise_cons.mp ordered
            have last := before since List.mem_cons_self
            have first := (List.pairwise_cons.mp ordered).1 since' among
            exact withinLifetime_of_notAfter first last within
          simp [same, young, none]
      · simp only [same, Bool.false_and, Bool.false_eq_true, if_false]
        exact ih ordered.tail
    | remove test =>
      rw [freshValues, latest?]
      split_ifs
      · rfl
      · exact ih ordered.tail

end Deed

namespace TimedCache

variable {κ ν ρ : Type} [BEq κ] {key : κ} {cache : TimedCache κ ν} {make : ρ → ν}
variable {deeds : List (Deed κ ρ)}

/-- The cache holds what was put in, as it was made of what the deeds say. -/
def Follows (cache : TimedCache κ ν) (make : ρ → ν) (deeds : List (Deed κ ρ)) : Prop :=
  ∀ key, cache.find? key = (Deed.latest? key deeds).map fun entry ↦ ⟨make entry.value, entry.since⟩

theorem Follows.empty (make : ρ → ν) : Follows ({} : TimedCache κ ν) make [] := fun _ ↦ rfl

theorem Follows.fresh? (follows : cache.Follows make deeds) (lifetime now : Number) (key : κ) :
    cache.fresh? lifetime now key = (Deed.latest? key deeds).bind fun entry ↦
      if withinLifetime lifetime entry.since now then some (make entry.value) else none := by
  rw [TimedCache.fresh?, follows key]
  cases Deed.latest? key deeds <;> rfl

variable [LawfulBEq κ]

theorem find?_remove (cache : TimedCache κ ν) (test : κ → Bool) (key : κ) :
    (cache.remove test).find? key = if test key then none else cache.find? key := by
  rw [find?, find?, remove]
  generalize cache.entries = entries
  induction entries with
  | nil => simp
  | cons entry rest ih =>
    obtain ⟨other, timed⟩ := entry
    rw [List.filter_cons, List.lookup_cons]
    by_cases same : key = other
    · subst same
      by_cases removed : test key
      · simpa [removed] using ih
      · simp [removed]
    · by_cases removed : test other
      · simpa [removed, same, beq_false_of_ne same] using ih
      · simpa [removed, List.lookup_cons, beq_false_of_ne same] using ih

theorem find?_put (cache : TimedCache κ ν) (key : κ) (value : ν) (now : Number) (key' : κ) :
    (cache.put key value now).find? key' =
      if key == key' then some ⟨value, now⟩ else cache.find? key' := by
  rw [find?, put, List.lookup_cons]
  by_cases same : key' = key
  · subst same
    simp
  · have others := cache.find?_remove (· == key) key'
    rw [beq_false_of_ne same] at others ⊢
    rw [beq_false_of_ne (Ne.symm same)]
    exact others

theorem Follows.put (follows : cache.Follows make deeds) (key : κ) (raw : ρ) (now : Number) :
    (cache.put key (make raw) now).Follows make (.put key raw now :: deeds) := by
  intro other
  rw [find?_put, Deed.latest?, follows other]
  split_ifs <;> rfl

theorem Follows.remove (follows : cache.Follows make deeds) (test : κ → Bool) :
    (cache.remove test).Follows make (.remove test :: deeds) := by
  intro other
  rw [find?_remove, Deed.latest?, follows other]
  split_ifs <;> rfl

end TimedCache

/-- What happens to what is kept for a while: the source from which it is read changes or fails,
time passes, something is read, and what is kept of one agent or of all is forgotten. A read may be
forced not to use what is kept. -/
inductive SourceEvent (σ ρ : Type) where
  | change (source : σ)
  | wait (seconds : Number)
  | read (request : ρ) (force : Bool)
  | forget (agent : Option String)

section Journal

variable {σ ε δ : Type} (perform : σ → ε → σ) (deeds : σ → ε → List δ)

/-- What is done in a run, the last first. -/
def journal (s : σ) : List ε → List δ
  | [] => []
  | event :: later => journal (perform s event) later ++ deeds s event

variable {perform deeds}

/-- What each event keeps of a state and what was done to it, a run keeps. -/
theorem journal_keeps {Kept : σ → List δ → Prop} {Allowed : ε → Prop}
    (step : ∀ s done event, Allowed event → Kept s done →
      Kept (perform s event) (deeds s event ++ done))
    {events : List ε} (allowed : ∀ event ∈ events, Allowed event) {s : σ} {done : List δ}
    (kept : Kept s done) :
    Kept (events.foldl perform s) (journal perform deeds s events ++ done) := by
  induction events generalizing s done with
  | nil => exact kept
  | cons event later ih =>
    rw [List.forall_mem_cons] at allowed
    rw [journal, List.append_assoc]
    exact ih allowed.2 (step s done event allowed.1 kept)

end Journal

end CallSearch
