import CallSearch.AgentSearch
import CallSearch.Proofs.Compile.Query
import CallSearch.Proofs.Store.Owner

namespace CallSearch

theorem CatalogCache.read_congr {d : CatalogCache} {sampler other : Sampler} {agent : String}
    (same : ∀ size, sampler agent size = other agent size) (now : Number) (size : Option Int)
    (force : Bool) : d.read sampler now agent size force = d.read other now agent size force := by
  simp only [read, sample, same]

theorem AnomalyWatch.read_congr {w : AnomalyWatch} {reader other : SignalReader} {agent : String}
    (same : ∀ days, reader agent days = other agent days) (now : Number) (force : Bool) :
    w.read reader now agent force = w.read other now agent force := by
  simp only [read, compute, same]

namespace AgentSearch

open CallTable

variable {s : AgentSearch} {first second : CallTable}

theorem catalog_congr (same : AgreeOn s.agent first second) (clock : Clock) (size : Option Int)
    (force : Bool) : s.catalog first clock size force = s.catalog second clock size force := by
  have sampled (n : Int) : samplerOf first s.agent n = samplerOf second s.agent n := by
    rw [samplerOf, samplerOf, same.sample]
  rw [catalog, catalog, CatalogCache.read_congr sampled]

theorem thresholds_congr (same : AgreeOn s.agent first second) (clock : Clock) (force : Bool) :
    s.thresholds first clock force = s.thresholds second clock force := by
  have signals (days : Option Int) :
      readerOf first clock.now s.agent days = readerOf second clock.now s.agent days := by
    rw [readerOf, readerOf, same.signalCalls]
  rw [thresholds, thresholds, AnomalyWatch.read_congr signals]

theorem thresholdsFor_agent (s : AgentSearch) (table : CallTable) (clock : Clock)
    (toggles : List Toggle) : (s.thresholdsFor table clock toggles).2.agent = s.agent := by
  unfold thresholdsFor
  split <;> rfl

theorem compile_congr (same : AgreeOn s.agent first second) (clock : Clock)
    (request : SearchRequest) : s.compile first clock request = s.compile second clock request := by
  have thresholds : s.thresholdsFor first clock request.toggles =
      s.thresholdsFor second clock request.toggles := by
    rw [thresholdsFor, thresholdsFor, thresholds_congr same]
  have agent := s.thresholdsFor_agent second clock request.toggles
  rw [compile, compile, thresholds]
  generalize s.thresholdsFor second clock request.toggles = outcome at agent
  obtain ⟨reached, next⟩ := outcome
  cases reached with
  | error e => rfl
  | ok found =>
    have same : AgreeOn next.agent first second := by
      rw [agent]
      exact same
    simp only [catalog_congr same]

theorem compile_ok {table : CallTable} {clock : Clock} {request : SearchRequest}
    {supply : IdSupply} {compilation : Compilation}
    (h : ((s.compile table clock request).run supply).1.1 = .ok compilation) :
    ∃ source : QuerySource, source.owner = some (Predicate.owner s.agent) ∧
      Compile.query source = .ok compilation := by
  simp only [compile, StateT.run] at h
  have agent := s.thresholdsFor_agent table clock request.toggles
  generalize s.thresholdsFor table clock request.toggles = outcome at agent h
  obtain ⟨reached, next⟩ := outcome
  cases reached with
  | error e => cases h
  | ok found =>
    refine ⟨{
      types := Compile.columnTypes (next.catalog table clock none false).1
      now := clock.now
      owner := some (Predicate.owner next.agent)
      groups := (groupsOf request supply).1
      toggles := request.toggles
      thresholds := found }, ?_, ok_of_mapError h⟩
    exact congrArg (fun agent ↦ some (Predicate.owner agent)) agent

theorem compile_owner {table : CallTable} {clock : Clock} {request : SearchRequest}
    {supply : IdSupply} {compilation : Compilation}
    (h : ((s.compile table clock request).run supply).1.1 = .ok compilation) :
    ∃ rest, compilation.predicates = Predicate.owner s.agent :: rest := by
  obtain ⟨source, owner, h⟩ := compile_ok h
  obtain ⟨compiled, reached, -, -, predicates, -⟩ := Compile.query_ok h
  rw [owner] at predicates
  exact ⟨compiled.predicates ++ reached, predicates⟩

/-- Nothing that a search of one agent's calls says depends on the calls of other agents, whatever
its user asks for, and all calls that it finds are the agent's. -/
theorem isolated (s : AgentSearch) {first second : CallTable}
    (same : AgreeOn s.agent first second) :
    (∀ clock size force, s.catalog first clock size force = s.catalog second clock size force) ∧
      (∀ clock force, s.thresholds first clock force = s.thresholds second clock force) ∧
      (∀ clock request, s.compile first clock request = s.compile second clock request) ∧
      ∀ clock request supply compilation,
        ((s.compile first clock request).run supply).1.1 = .ok compilation →
          AnswerAlike s.agent compilation.predicates first second := by
  refine ⟨catalog_congr same, thresholds_congr same, compile_congr same, ?_⟩
  intro clock request supply compilation h
  obtain ⟨rest, predicates⟩ := compile_owner h
  rw [predicates]
  exact same.answerAlike rest

def bareCall (id : Int) (agent : String) : Call where
  id := id
  agent := agent
  createdAt := .startOf default
  texts _ := none
  times _ := none
  numbers _ := none
  payloads _ := none

theorem isolated_bareCalls :
    AgreeOn "a" (some [bareCall 1 "a", bareCall 2 "b"]) (some [bareCall 3 "c", bareCall 1 "a"]) ∧
      (((start "a" {}).compile (some [bareCall 1 "a", bareCall 2 "b"])
        ⟨.startOf default, .int 0⟩ {}).run ⟨0⟩).1.1 = .ok ⟨[Predicate.owner "a"], []⟩ ∧
      CallTable.count (some [bareCall 1 "a", bareCall 2 "b"]) [Predicate.owner "a"] =
        CallTable.count (some [bareCall 3 "c", bareCall 1 "a"]) [Predicate.owner "a"] := by
  have same : AgreeOn (start "a" {}).agent (some [bareCall 1 "a", bareCall 2 "b"])
      (some [bareCall 3 "c", bareCall 1 "a"]) := by
    refine agreeOn_of_perm ?_ (.refl _)
    simp [UniqueIds, bareCall]
  have compiled : (((start "a" {}).compile (some [bareCall 1 "a", bareCall 2 "b"])
      ⟨.startOf default, .int 0⟩ {}).run ⟨0⟩).1.1 = .ok ⟨[Predicate.owner "a"], []⟩ := rfl
  obtain ⟨-, -, -, alike⟩ := (start "a" {}).isolated same
  exact ⟨same, compiled, (alike _ _ _ _ compiled).count⟩

end AgentSearch

end CallSearch
