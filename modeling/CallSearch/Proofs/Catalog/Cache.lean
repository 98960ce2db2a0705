import CallSearch.Catalog.Cache
import CallSearch.Proofs.TimedCache

namespace CallSearch

/-- The catalogs that are kept, the calls from which they are sampled, and a clock. -/
structure CatalogDesk where
  catalogs : CatalogCache
  sampler : Sampler
  clock : Number

namespace CatalogDesk

abbrev Event := SourceEvent Sampler (String × Option ℤ)

def read (s : CatalogDesk) (agent : String) (size : Option ℤ) (force : Bool) :
    CatalogCache.Outcome :=
  s.catalogs.read s.sampler s.clock agent size force

def perform (s : CatalogDesk) : Event → CatalogDesk
  | .change sampler => { s with sampler }
  | .wait seconds => { s with clock := s.clock.add seconds }
  | .read (agent, size) force => { s with catalogs := (s.read agent size force).after }
  | .forget agent => { s with catalogs := s.catalogs.forget agent }

def run (s : CatalogDesk) (events : List Event) : CatalogDesk := events.foldl perform s

/-- What an event does to the samples that are kept. A read puts in the sample that it asks for, if
that can be taken. -/
def deeds (s : CatalogDesk) : Event → List (Deed (String × ℤ) (List Json))
  | .read (agent, size) force =>
    match (s.read agent size force).asked with
    | some key => ((s.sampler key.1 key.2).map fun rows ↦ Deed.put key rows s.clock).toList
    | none => []
  | .forget agent => [.remove fun key ↦ agent.all (· == key.1)]
  | .change _ | .wait _ => []

def Forward : Event → Prop
  | .wait seconds => (Number.int 0).le seconds
  | _ => True

/-- The event has to do with one agent only: its calls change, or it is read or forgotten. -/
def Concerns (s : CatalogDesk) (agent : String) : Event → Prop
  | .change sampler => ∀ other, other ≠ agent → sampler other = s.sampler other
  | .wait _ => False
  | .read (owner, _) _ => owner = agent
  | .forget owner => owner = some agent

variable {s : CatalogDesk} {done : List (Deed (String × ℤ) (List Json))}

theorem sample_eq (s : CatalogDesk) (agent : String) (size : ℤ) :
    (∃ rows, s.sampler agent size = some rows ∧
        s.catalogs.sample s.sampler s.clock agent size =
          ⟨Catalog.build rows, some (agent, size),
            { s.catalogs with
              cache := s.catalogs.cache.put (agent, size) (Catalog.build rows) s.clock }⟩) ∨
      s.sampler agent size = none ∧
        s.catalogs.sample s.sampler s.clock agent size = ⟨[], some (agent, size), s.catalogs⟩ := by
  rw [CatalogCache.sample]
  cases s.sampler agent size with
  | none => exact .inr ⟨rfl, rfl⟩
  | some rows => exact .inl ⟨rows, rfl, rfl⟩

section Read

variable {agent : String} {size : Option ℤ} {force : Bool}

theorem read_fresh {catalog : Catalog}
    (fresh : s.catalogs.cache.fresh? s.catalogs.lifetime s.clock (agent, s.catalogs.sizeOf size) =
      some catalog) : s.read agent size false = ⟨catalog, none, s.catalogs⟩ := by
  rw [read, CatalogCache.read, fresh]
  rfl

theorem read_stale
    (stale : force = true ∨ s.catalogs.cache.fresh? s.catalogs.lifetime s.clock
      (agent, s.catalogs.sizeOf size) = none) :
    s.read agent size force =
      s.catalogs.sample s.sampler s.clock agent (s.catalogs.sizeOf size) := by
  rw [read, CatalogCache.read]
  rcases stale with rfl | none
  · rfl
  · rw [none, ite_self]

theorem read_cases (s : CatalogDesk) (agent : String) (size : Option ℤ) (force : Bool) :
    (∃ catalog, s.read agent size force = ⟨catalog, none, s.catalogs⟩) ∨
      s.read agent size force =
        s.catalogs.sample s.sampler s.clock agent (s.catalogs.sizeOf size) := by
  cases force with
  | true => exact .inr (read_stale (.inl rfl))
  | false =>
    cases found : s.catalogs.cache.fresh? s.catalogs.lifetime s.clock
        (agent, s.catalogs.sizeOf size) with
    | none => exact .inr (read_stale (.inr found))
    | some catalog => exact .inl ⟨catalog, read_fresh found⟩

end Read

/-- The catalogs that are kept are those of the samples that were taken, and the settings are those
of the start. -/
structure Kept (start : CatalogCache) (s : CatalogDesk)
    (done : List (Deed (String × ℤ) (List Json))) : Prop where
  settings : s.catalogs = { start with cache := s.catalogs.cache }
  follows : s.catalogs.cache.Follows Catalog.build done
  ordered : Deed.Ordered s.clock done

theorem perform_kept {start : CatalogCache} {event : Event} (forward : Forward event)
    (kept : Kept start s done) : Kept start (perform s event) (deeds s event ++ done) := by
  obtain ⟨settings, follows, ordered⟩ := kept
  cases event with
  | change sampler => exact ⟨settings, follows, ordered⟩
  | wait seconds => exact ⟨settings, follows, ordered.wait forward⟩
  | forget agent =>
    refine ⟨?_, follows.remove _, ordered⟩
    rw [perform, CatalogCache.forget, settings]
  | read request force =>
    obtain ⟨agent, size⟩ := request
    rw [perform, deeds]
    obtain ⟨catalog, answered⟩ | answered := s.read_cases agent size force
    · rw [answered]
      exact ⟨settings, follows, ordered⟩
    · obtain ⟨rows, taken, sampled⟩ | ⟨failed, sampled⟩ :=
        s.sample_eq agent (s.catalogs.sizeOf size)
      · rw [answered, sampled]
        simp only [taken]
        refine ⟨?_, follows.put _ rows _, ordered.put _ rows⟩
        rw [settings]
      · rw [answered, sampled]
        simp only [failed]
        exact ⟨settings, follows, ordered⟩

theorem read_kept {start : CatalogCache} (kept : Kept start s done) (agent : String)
    (size : Option ℤ) (force : Bool) :
    let fresh := Deed.freshValues start.lifetime s.clock (agent, start.sizeOf size) done
    (∀ rows older, force = false → fresh = rows :: older →
      s.read agent size force = ⟨Catalog.build rows, none, s.catalogs⟩) ∧
    (force = true ∨ fresh = [] →
      s.read agent size force = s.catalogs.sample s.sampler s.clock agent (start.sizeOf size)) := by
  have lifetime : s.catalogs.lifetime = start.lifetime := by rw [kept.settings]
  have sized : s.catalogs.sizeOf size = start.sizeOf size := by
    rw [kept.settings]
    rfl
  have found : s.catalogs.cache.fresh? start.lifetime s.clock (agent, start.sizeOf size) =
      (Deed.freshValues start.lifetime s.clock (agent, start.sizeOf size) done).head?.map
        Catalog.build := by
    rw [kept.follows.fresh?, Deed.head?_freshValues kept.ordered, Option.map_bind]
    refine congrArg _ (funext fun entry ↦ ?_)
    rw [Function.comp_apply, apply_ite (Option.map Catalog.build)]
    rfl
  refine ⟨fun rows older unforced fresh ↦ ?_, fun stale ↦ ?_⟩
  · rw [unforced]
    refine read_fresh ?_
    rw [lifetime, sized, found, fresh]
    rfl
  · rw [← sized]
    refine read_stale (stale.imp_right fun none ↦ ?_)
    rw [lifetime, sized, found, none]
    rfl

theorem perform_settings (s : CatalogDesk) (event : Event) :
    (s.perform event).catalogs = { s.catalogs with cache := (s.perform event).catalogs.cache } := by
  cases event with
  | change | wait | forget => rfl
  | read request force =>
    rw [perform]
    obtain ⟨catalog, answered⟩ | answered := s.read_cases request.1 request.2 force
    · rw [answered]
    · obtain ⟨rows, -, sampled⟩ | ⟨-, sampled⟩ :=
        s.sample_eq request.1 (s.catalogs.sizeOf request.2)
      all_goals rw [answered, sampled]

/-- The calls of an agent, what is kept of it, the settings and the time are the same. -/
structure Alike (agent : String) (s t : CatalogDesk) : Prop where
  sampler : t.sampler agent = s.sampler agent
  clock : t.clock = s.clock
  settings : t.catalogs = { s.catalogs with cache := t.catalogs.cache }
  entries : ∀ size,
    t.catalogs.cache.find? (agent, size) = s.catalogs.cache.find? (agent, size)

section Alike

variable {t : CatalogDesk} {agent other : String}

theorem Alike.read (alike : Alike agent s t) (size : Option ℤ) (force : Bool) :
    (t.read agent size force).catalog = (s.read agent size force).catalog ∧
      (t.read agent size force).asked = (s.read agent size force).asked ∧
      ∀ size', (t.read agent size force).after.cache.find? (agent, size') =
        (s.read agent size force).after.cache.find? (agent, size') := by
  have sized : t.catalogs.sizeOf size = s.catalogs.sizeOf size := by
    rw [alike.settings]
    rfl
  have lifetime : t.catalogs.lifetime = s.catalogs.lifetime := by rw [alike.settings]
  have fresh : t.catalogs.cache.fresh? t.catalogs.lifetime t.clock
      (agent, t.catalogs.sizeOf size) =
      s.catalogs.cache.fresh? s.catalogs.lifetime s.clock (agent, s.catalogs.sizeOf size) := by
    rw [TimedCache.fresh?, TimedCache.fresh?, sized, lifetime, alike.clock, alike.entries]
  rw [CatalogDesk.read, CatalogDesk.read, CatalogCache.read, CatalogCache.read, fresh]
  cases if force then none else
    s.catalogs.cache.fresh? s.catalogs.lifetime s.clock (agent, s.catalogs.sizeOf size) with
  | some catalog => exact ⟨rfl, rfl, alike.entries⟩
  | none =>
    dsimp only
    rw [CatalogCache.sample, CatalogCache.sample, sized, alike.sampler]
    cases s.sampler agent (s.catalogs.sizeOf size) with
    | none => exact ⟨rfl, rfl, alike.entries⟩
    | some rows =>
      refine ⟨rfl, rfl, fun size' ↦ ?_⟩
      rw [TimedCache.find?_put, TimedCache.find?_put, alike.clock, alike.entries]

/-- What is done for one agent leaves the others as they are. -/
theorem perform_alike {event : Event} (concerns : s.Concerns agent event)
    (different : other ≠ agent) : Alike other s (s.perform event) := by
  refine ⟨?_, ?_, s.perform_settings event, fun size ↦ ?_⟩
  · cases event with
    | change sampler => exact concerns other different
    | wait | read | forget => rfl
  · cases event with
    | wait => exact concerns.elim
    | change | read | forget => rfl
  · cases event with
    | wait => exact concerns.elim
    | change => rfl
    | forget owner =>
      obtain rfl : owner = some agent := concerns
      have spared : (some agent).all (· == other) = false := beq_false_of_ne different.symm
      rw [perform, CatalogCache.forget, TimedCache.find?_remove, spared]
      rfl
    | read request force =>
      obtain ⟨owner, asked⟩ := request
      obtain rfl : owner = agent := concerns
      rw [perform]
      obtain ⟨catalog, answered⟩ | answered := s.read_cases owner asked force
      · rw [answered]
      · obtain ⟨rows, -, sampled⟩ | ⟨-, sampled⟩ := s.sample_eq owner (s.catalogs.sizeOf asked)
        · have key : ((owner, s.catalogs.sizeOf asked) == (other, size)) = false :=
            beq_false_of_ne fun same ↦ different (congrArg Prod.fst same).symm
          rw [answered, sampled, TimedCache.find?_put, key]
          rfl
        · rw [answered, sampled]

theorem Alike.perform (alike : Alike agent s t) (event : Event) :
    Alike agent (s.perform event) (t.perform event) := by
  have settings : (t.perform event).catalogs =
      { (s.perform event).catalogs with cache := (t.perform event).catalogs.cache } := by
    rw [t.perform_settings event, s.perform_settings event, alike.settings]
  cases event with
  | change sampler => exact ⟨rfl, alike.clock, settings, alike.entries⟩
  | wait seconds =>
    exact ⟨alike.sampler, congrArg (·.add seconds) alike.clock, settings, alike.entries⟩
  | forget owner =>
    refine ⟨alike.sampler, alike.clock, settings, fun size ↦ ?_⟩
    rw [CatalogDesk.perform, CatalogDesk.perform, CatalogCache.forget, CatalogCache.forget,
      TimedCache.find?_remove, TimedCache.find?_remove, alike.entries]
  | read request force =>
    refine ⟨alike.sampler, alike.clock, settings, fun size ↦ ?_⟩
    by_cases own : request.1 = agent
    · obtain ⟨owner, asked⟩ := request
      obtain rfl : owner = agent := own
      exact (alike.read asked force).2.2 size
    · have left : Alike agent s (s.perform (.read request force)) :=
        perform_alike rfl (Ne.symm own)
      have right : Alike agent t (t.perform (.read request force)) :=
        perform_alike rfl (Ne.symm own)
      rw [right.entries, left.entries, alike.entries]

theorem Alike.run (alike : Alike agent s t) (events : List Event) :
    Alike agent (s.run events) (t.run events) := by
  induction events generalizing s t with
  | nil => exact alike
  | cons event later ih => exact ih (alike.perform event)

end Alike

/-- Catalogs are read as the samples that were taken say, on a clock that does not go back. A read
that is not forced uses the last sample of the agent and size that is fresh and was not forgotten,
if there is one, and asks for none. Any other read asks for one sample and shows the catalog of it,
or none if it cannot be taken; then all that is kept stays. What is done for one agent changes
nothing of what is read for another from then on. -/
theorem read_samples (start : CatalogDesk) (empty : start.catalogs.cache = {}) {events : List Event}
    (forward : ∀ event ∈ events, Forward event) (agent : String) (size : Option ℤ) (force : Bool) :
    let s := run start events
    let key := (agent, start.catalogs.sizeOf size)
    let fresh := Deed.freshValues start.catalogs.lifetime s.clock key
      (journal perform deeds start events)
    let outcome := s.read agent size force
    (∀ rows older, force = false → fresh = rows :: older →
      outcome = ⟨Catalog.build rows, none, s.catalogs⟩) ∧
    (force = true ∨ fresh = [] →
      outcome.asked = some key ∧
      outcome.catalog = ((s.sampler key.1 key.2).map Catalog.build).getD [] ∧
      (s.sampler key.1 key.2 = none → outcome.after = s.catalogs)) ∧
    ∀ event later other size force, s.Concerns agent event → other ≠ agent →
      (((s.perform event).run later).read other size force).catalog =
        ((s.run later).read other size force).catalog ∧
      (((s.perform event).run later).read other size force).asked =
        ((s.run later).read other size force).asked := by
  intro s key fresh outcome
  have kept : Kept start.catalogs s (journal perform deeds start events ++ []) := by
    refine journal_keeps (fun _ _ _ ↦ perform_kept) forward ⟨rfl, ?_, ?_⟩
    · rw [empty]
      exact TimedCache.Follows.empty _
    · exact List.pairwise_singleton _ _
  rw [List.append_nil] at kept
  obtain ⟨served, asked⟩ := read_kept kept agent size force
  refine ⟨served, fun stale ↦ ?_, fun event later other size force concerns different ↦ ?_⟩
  · have answered : outcome = s.catalogs.sample s.sampler s.clock agent _ := asked stale
    rw [answered]
    obtain ⟨rows, taken, sampled⟩ | ⟨failed, sampled⟩ :=
      s.sample_eq agent (start.catalogs.sizeOf size)
    · rw [sampled]
      exact ⟨rfl, by rw [taken]; rfl, fun failed ↦ by cases taken.symm.trans failed⟩
    · rw [sampled]
      exact ⟨rfl, by rw [failed]; rfl, fun _ ↦ rfl⟩
  · obtain ⟨catalog, ask, -⟩ := ((perform_alike concerns different).run later).read size force
    exact ⟨catalog, ask⟩

def idleDesk : CatalogDesk := ⟨{}, fun _ _ ↦ some [], .int 0⟩

def failingEvents : List Event :=
  [.read ("a", none) false, .wait (.int 299), .change fun _ _ ↦ none]

theorem read_samples_failing :
    (run idleDesk failingEvents).read "a" none false =
        ⟨Catalog.build [], none, (run idleDesk failingEvents).catalogs⟩ ∧
      ((run idleDesk failingEvents).read "a" none true).catalog = [] ∧
      ((run idleDesk failingEvents).read "b" none false).asked = some ("b", 500) := by
  have forward : ∀ event ∈ failingEvents, Forward event := by
    have waits : (Number.int 0).le (.int 299) := by decide +kernel
    simpa [failingEvents, Forward] using waits
  have young : withinLifetime (.int 300) (.int 0) (.int 299) := by decide +kernel
  have done : journal perform deeds idleDesk failingEvents = [.put ("a", 500) [] (.int 0)] := rfl
  have served := (read_samples idleDesk rfl forward "a" none false).1
  have forced := (read_samples idleDesk rfl forward "a" none true).2.1 (.inl rfl)
  have other := (read_samples idleDesk rfl forward "b" none false).2.1
  rw [done] at served other
  refine ⟨served [] [] rfl ?_, forced.2.1, (other (.inr rfl)).1⟩
  exact if_pos ((Bool.and_eq_true _ _).mpr ⟨rfl, young⟩)

end CatalogDesk

end CallSearch
