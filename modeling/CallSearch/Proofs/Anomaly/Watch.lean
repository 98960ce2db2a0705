import CallSearch.Proofs.Anomaly.Computed
import CallSearch.Proofs.Anomaly.Tail
import CallSearch.Proofs.TimedCache

namespace CallSearch

/-- The thresholds that are kept, the calls from which they are computed, and a clock. -/
structure AnomalyDesk where
  watch : AnomalyWatch
  reader : SignalReader
  clock : Number

namespace AnomalyDesk

abbrev Event := SourceEvent SignalReader String

def read (s : AnomalyDesk) (agent : String) (force : Bool) : AnomalyWatch.Outcome :=
  s.watch.read s.reader s.clock agent force

def perform (s : AnomalyDesk) : Event → AnomalyDesk
  | .change reader => { s with reader }
  | .wait seconds => { s with clock := s.clock.add seconds }
  | .read agent force => { s with watch := (s.read agent force).after }
  | .forget agent => { s with watch := s.watch.forget agent }

def run (s : AnomalyDesk) (events : List Event) : AnomalyDesk := events.foldl perform s

/-- What an event does to the thresholds that are kept. A read puts in what it computes, if it asks
for the calls and they can be read. -/
def deeds (s : AnomalyDesk) : Event → List (Deed String Thresholds)
  | .read agent force =>
    match (s.read agent force).asked.bind fun (agent, days) ↦ s.reader agent days,
      (s.read agent force).thresholds with
    | some _, .ok thresholds => [.put agent thresholds s.clock]
    | _, _ => []
  | .forget agent => [.remove fun key ↦ agent.all (· == key)]
  | .change _ | .wait _ => []

def Fits (reader : SignalReader) : Prop :=
  ∀ agent days rows, reader agent days = some rows → FitRows rows

def KeepsFit : Event → Prop
  | .change reader => Fits reader
  | _ => True

variable {s : AnomalyDesk} {done : List (Deed String Thresholds)}

theorem compute_cases (s : AnomalyDesk) (asDefault : IsDefaultPercentile s.watch.percentile)
    (fits : Fits s.reader) (agent : String) :
    (∃ rows thresholds, s.reader agent s.watch.lookbackDays = some rows ∧
        Thresholds.compute s.watch.minimum s.watch.percentile rows = .ok thresholds ∧
        s.watch.compute s.reader s.clock agent =
          ⟨.ok thresholds, some (agent, s.watch.lookbackDays),
            { s.watch with cache := s.watch.cache.put agent thresholds s.clock }⟩) ∨
      s.reader agent s.watch.lookbackDays = none ∧
        s.watch.compute s.reader s.clock agent =
          ⟨.ok {}, some (agent, s.watch.lookbackDays), s.watch⟩ := by
  rw [AnomalyWatch.compute]
  cases found : s.reader agent s.watch.lookbackDays with
  | none => exact .inr ⟨rfl, rfl⟩
  | some rows =>
    obtain ⟨thresholds, computed⟩ :=
      Thresholds.compute_total asDefault (fits agent _ rows found) s.watch.minimum
    refine .inl ⟨rows, thresholds, rfl, computed, ?_⟩
    simp only [computed]

section Read

variable {agent : String} {force : Bool}

theorem read_fresh {thresholds : Thresholds}
    (fresh : s.watch.cache.fresh? s.watch.lifetime s.clock agent = some thresholds) :
    s.read agent false = ⟨.ok thresholds, none, s.watch⟩ := by
  rw [read, AnomalyWatch.read, fresh]
  rfl

theorem read_stale
    (stale : force = true ∨ s.watch.cache.fresh? s.watch.lifetime s.clock agent = none) :
    s.read agent force = s.watch.compute s.reader s.clock agent := by
  rw [read, AnomalyWatch.read]
  rcases stale with rfl | none
  · rfl
  · rw [none, ite_self]

theorem read_cases (s : AnomalyDesk) (agent : String) (force : Bool) :
    (∃ thresholds, s.read agent force = ⟨.ok thresholds, none, s.watch⟩) ∨
      s.read agent force = s.watch.compute s.reader s.clock agent := by
  cases force with
  | true => exact .inr (read_stale (.inl rfl))
  | false =>
    cases found : s.watch.cache.fresh? s.watch.lifetime s.clock agent with
    | none => exact .inr (read_stale (.inr found))
    | some thresholds => exact .inl ⟨thresholds, read_fresh found⟩

end Read

/-- The thresholds that are kept are those that were computed, the settings are those of the start,
and the rows fit. -/
structure Kept (start : AnomalyWatch) (s : AnomalyDesk) (done : List (Deed String Thresholds)) :
    Prop where
  settings : s.watch = { start with cache := s.watch.cache }
  follows : s.watch.cache.Follows id done
  fits : Fits s.reader

theorem perform_kept {start : AnomalyWatch} (asDefault : IsDefaultPercentile start.percentile)
    {event : Event} (keeps : KeepsFit event) (kept : Kept start s done) :
    Kept start (perform s event) (deeds s event ++ done) := by
  obtain ⟨settings, follows, fits⟩ := kept
  cases event with
  | change reader => exact ⟨settings, follows, keeps⟩
  | wait seconds => exact ⟨settings, follows, fits⟩
  | forget agent =>
    refine ⟨?_, follows.remove _, fits⟩
    rw [perform, AnomalyWatch.forget, settings]
  | read agent force =>
    have same : IsDefaultPercentile s.watch.percentile := by rwa [settings]
    rw [perform, deeds]
    obtain ⟨thresholds, answered⟩ | answered := s.read_cases agent force
    · rw [answered]
      exact ⟨settings, follows, fits⟩
    · obtain ⟨rows, thresholds, read, -, computed⟩ | ⟨failed, computed⟩ :=
        s.compute_cases same fits agent
      · rw [answered, computed]
        simp only [Option.bind_some, read]
        refine ⟨?_, follows.put agent thresholds _, fits⟩
        rw [settings]
      · rw [answered, computed]
        simp only [Option.bind_some, failed]
        exact ⟨settings, follows, fits⟩

theorem read_kept {start : AnomalyWatch} (kept : Kept start s done) (agent : String)
    (force : Bool) :
    (∀ entry, force = false → Deed.latest? agent done = some entry →
      withinLifetime start.lifetime entry.since s.clock = true →
      s.read agent force = ⟨.ok entry.value, none, s.watch⟩) ∧
    (force = true ∨ (∀ entry, Deed.latest? agent done = some entry →
        withinLifetime start.lifetime entry.since s.clock = false) →
      s.read agent force = s.watch.compute s.reader s.clock agent) := by
  have lifetime : s.watch.lifetime = start.lifetime := by rw [kept.settings]
  refine ⟨fun entry unforced last fresh ↦ ?_, fun stale ↦ ?_⟩
  · rw [unforced]
    refine read_fresh ?_
    rw [lifetime, kept.follows.fresh?, last, Option.bind_some, if_pos fresh]
    rfl
  · refine read_stale (stale.imp_right fun old ↦ ?_)
    rw [lifetime, kept.follows.fresh?, Option.bind_eq_none_iff]
    exact fun entry last ↦ if_neg (Bool.eq_false_iff.mp (old entry last))

/-- Thresholds are read as the computations that were made say. A read that is not forced uses the
last computation for the agent if that is fresh and was not forgotten, and asks for no calls. Any
other read asks once and computes the thresholds of the rows that it gets. If it gets none, the
thresholds are empty, and all that is kept stays. -/
theorem read_computations (start : AnomalyDesk) (empty : start.watch.cache = {})
    (asDefault : IsDefaultPercentile start.watch.percentile) (fits : Fits start.reader)
    {events : List Event} (keeps : ∀ event ∈ events, KeepsFit event) (agent : String)
    (force : Bool) :
    let s := run start events
    let last := Deed.latest? agent (journal perform deeds start events)
    let fresh (entry : Timed Thresholds) :=
      withinLifetime start.watch.lifetime entry.since s.clock
    let outcome := s.read agent force
    (∀ entry, force = false → last = some entry → fresh entry = true →
      outcome = ⟨.ok entry.value, none, s.watch⟩) ∧
    (force = true ∨ (∀ entry, last = some entry → fresh entry = false) →
      outcome.asked = some (agent, start.watch.lookbackDays) ∧
      match s.reader agent start.watch.lookbackDays with
      | some rows => ∃ thresholds,
        Thresholds.compute start.watch.minimum start.watch.percentile rows = .ok thresholds ∧
        outcome.thresholds = .ok thresholds
      | none => outcome.thresholds = .ok {} ∧ outcome.after = s.watch) := by
  intro s last fresh outcome
  have kept : Kept start.watch s (journal perform deeds start events ++ []) := by
    refine journal_keeps (fun _ _ _ ↦ perform_kept asDefault) keeps ⟨rfl, ?_, fits⟩
    rw [empty]
    exact TimedCache.Follows.empty _
  rw [List.append_nil] at kept
  obtain ⟨served, asked⟩ := read_kept kept agent force
  refine ⟨served, fun stale ↦ ?_⟩
  have percentile : s.watch.percentile = start.watch.percentile := by rw [kept.settings]
  have minimum : s.watch.minimum = start.watch.minimum := by rw [kept.settings]
  have days : s.watch.lookbackDays = start.watch.lookbackDays := by rw [kept.settings]
  have computation := s.compute_cases (percentile ▸ asDefault) kept.fits agent
  rw [← asked stale, days, minimum, percentile] at computation
  obtain ⟨rows, thresholds, read, computed, answered⟩ | ⟨failed, answered⟩ := computation
  · rw [read]
    exact ⟨congrArg AnomalyWatch.Outcome.asked answered, thresholds, computed,
      congrArg AnomalyWatch.Outcome.thresholds answered⟩
  · rw [failed]
    exact ⟨congrArg AnomalyWatch.Outcome.asked answered,
      congrArg AnomalyWatch.Outcome.thresholds answered,
      congrArg AnomalyWatch.Outcome.after answered⟩

def briefRow : Json :=
  .obj [("duration_seconds", .real oneSecond), ("avg_latency", .null), ("total_llm_cost", .null),
    ("total_tts_cost", .null), ("total_stt_cost", .null), ("metadata", .null)]

def briefThresholds : Thresholds where
  duration := some oneSecond
  samples := [(.duration, 1), (.cost, 0), (.latency, 0)]

theorem compute_briefRow : Thresholds.compute 1 (.int 95) [briefRow] = .ok briefThresholds := by
  have duration : Signal.duration.values [briefRow] = .ok [oneSecond] := rfl
  have cost : Signal.cost.values [briefRow] = .ok [] := by decide +kernel
  have latency : Signal.latency.values [briefRow] = .ok [] := rfl
  have chosen := Thresholds.ofValues_one (v := oneSecond) rfl
  exact Thresholds.compute_of_values duration cost latency chosen rfl rfl

def briefDesk : AnomalyDesk := ⟨eagerWatch, fun _ _ ↦ some [briefRow], .int 0⟩

def flakyEvents : List Event :=
  [.read "a" false, .change fun _ _ ↦ none, .wait (.int 1), .read "a" true]

theorem read_computations_flaky :
    (run briefDesk flakyEvents).read "a" false =
        ⟨.ok briefThresholds, none, (run briefDesk flakyEvents).watch⟩ ∧
      ((run briefDesk flakyEvents).read "a" true).thresholds = .ok {} ∧
      ((run briefDesk flakyEvents).read "b" false).asked = some ("b", none) := by
  have fits : Fits briefDesk.reader := by
    rintro agent days rows ⟨⟩
    refine ⟨?_, isSome_ofInt?_length (by decide)⟩
    simp only [List.forall_mem_singleton]
    refine .obj ?_
    simp [Json.FitsFloat.null, Json.FitsFloat.real]
  have keeps : ∀ event ∈ flakyEvents, KeepsFit event := by
    simp [flakyEvents, KeepsFit, Fits]
  have computed : briefDesk.read "a" false = ⟨.ok briefThresholds, some ("a", none),
      { eagerWatch with cache := eagerWatch.cache.put "a" briefThresholds (.int 0) }⟩ := by
    rw [read_stale (.inr rfl)]
    simp only [AnomalyWatch.compute, briefDesk, eagerWatch, compute_briefRow]
  have done : journal perform deeds briefDesk flakyEvents =
      [.put "a" briefThresholds (.int 0)] := by
    simp only [journal, flakyEvents, deeds, computed]
    rfl
  have young : withinLifetime (.int 300) (.int 0) (.int 1) = true := by decide +kernel
  have clock : (run briefDesk flakyEvents).clock = .int 1 := rfl
  have failing : (run briefDesk flakyEvents).reader = fun _ _ ↦ none := rfl
  have kept := (read_computations briefDesk rfl rfl fits keeps "a" false).1
  have forced := (read_computations briefDesk rfl rfl fits keeps "a" true).2 (.inl rfl)
  have other := (read_computations briefDesk rfl rfl fits keeps "b" false).2
  rw [done] at kept other
  refine ⟨kept ⟨briefThresholds, .int 0⟩ rfl rfl young, forced.2.1, (other (.inr ?_)).1⟩
  intro entry none
  cases none

end AnomalyDesk

end CallSearch
