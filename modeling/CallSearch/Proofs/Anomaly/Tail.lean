import CallSearch.Proofs.Anomaly.Percentile
import CallSearch.Proofs.Anomaly.Signals
import CallSearch.Proofs.Store.Pages

namespace CallSearch

namespace Signal

def column? : Signal → Option NumberColumn
  | .duration => some .duration
  | .cost => none
  | .latency => some .latency

variable {signal : Signal} {column : NumberColumn} {call : Call}

theorem amount_column (h : signal.column? = some column) :
    signal.amount call = call.numbers column := by
  cases signal with
  | duration | latency =>
    cases h
    rfl
  | cost => cases h

theorem columnValue_signalRow {name : String}
    (h : call.signalRow.member? name = some (call.value (.number column))) :
    columnValue name call.signalRow = .ok (call.numbers column) := by
  rw [columnValue, h, Option.bind_some, Call.value]
  cases call.numbers column <;> rfl

theorem value_column (h : signal.column? = some column) :
    signal.value call.signalRow = .ok (call.numbers column) := by
  cases signal with
  | duration =>
    cases h
    exact columnValue_signalRow rfl
  | latency =>
    cases h
    exact columnValue_signalRow rfl
  | cost => cases h

theorem values_column (h : signal.column? = some column) (calls : List Call) :
    signal.values (calls.map Call.signalRow) = .ok (calls.filterMap (·.numbers column)) := by
  have values : (calls.map Call.signalRow).mapM signal.value =
      .ok (calls.map (·.numbers column)) := by
    rw [List.mapM_map]
    exact mapM_ok fun call _ ↦ value_column h
  rw [Signal.values, values]
  simp [Except.map, List.filterMap_map]

end Signal

section Counts

variable {agent : String} {column : NumberColumn} {v : Double} {calls own : List Call}

theorem countP_numbers (perm : own.Perm (calls.filter (·.agent == agent))) (test : Double → Bool) :
    (own.filterMap (·.numbers column)).countP test =
      (calls.filter fun call ↦ call.agent == agent && (call.numbers column).any test).length := by
  have kept (call : Call) : (((call.numbers column).map test).getD false) =
      (call.numbers column).any test := by
    cases call.numbers column <;> rfl
  rw [List.countP_filterMap, perm.countP_eq, List.countP_filter, List.countP_eq_length_filter]
  simp only [kept, Bool.and_comm]

theorem length_reaching (perm : own.Perm (calls.filter (·.agent == agent))) :
    (reaching agent (·.numbers column) v calls).length =
      ((own.filterMap (·.numbers column)).map Number.real).countP ((Number.real v).le ·) := by
  rw [List.countP_map, countP_numbers perm]
  rfl

theorem length_exceeding (perm : own.Perm (calls.filter (·.agent == agent))) :
    (exceeding agent (·.numbers column) v calls).length =
      ((own.filterMap (·.numbers column)).map Number.real).countP ((Number.real v).lt ·) := by
  rw [List.countP_map, countP_numbers perm]
  rfl

end Counts

theorem CallTable.first_page {table : CallTable} {predicates : List Predicate} {chosen : List Call}
    (selected : table.select predicates = .ok chosen) (some : 0 < chosen.length) (order : SortOrder)
    {limit : ℕ} (one : 1 ≤ limit) (bindable : limit < Number.wordEnd) :
    ∃ rows, table.fetch predicates order ⟨0, Option.some limit⟩ = .ok rows ∧ rows ≠ [] := by
  have page := fetch_page selected order (by decide : 0 < Number.wordEnd) bindable
  rw [List.drop_zero] at page
  refine ⟨_, page, ?_⟩
  rw [← List.length_pos_iff, List.length_take, SortOrder.length_list]
  omega

/-- The threshold of a signal on a column of numbers has a rank among the calls of the agent that
have a number. The query for the signal finds exactly the calls of the agent whose number reaches
the threshold: at least those from the rank on, so that no first page is empty, and no more than
those behind the rank are above the threshold. -/
theorem signal_tail {calls : List Call} {agent : String} {now : Timestamp} {seconds : Number}
    {w : AnomalyWatch} {thresholds : Thresholds} {signal : Signal} {column : NumberColumn}
    {v : Double} (stored : CallTable.Stored (some calls)) (percentile : w.percentile = .int 95)
    (all : w.lookbackDays = none) (numeric : signal.column? = some column)
    (computed : (w.compute (AgentSearch.readerOf (some calls) now) seconds agent).thresholds =
      .ok thresholds)
    (reached : thresholds.get? signal = some v) (types : Compile.ColumnTypes) :
    ∃ (k : ℕ) (compilation : Compilation) (chosen : List Call),
      percentileRank w.percentile (thresholds.sampleSize signal) = .ok (k : ℤ) ∧
        1 ≤ k ∧ k ≤ thresholds.sampleSize signal ∧
      Compile.query (signal.query types now agent thresholds) = .ok compilation ∧
      CallTable.select (some calls) compilation.predicates = .ok chosen ∧
      (∀ call, call ∈ chosen ↔ call ∈ calls ∧ call.agent = agent ∧
        ∃ x, call.numbers column = some x ∧ (Number.real v).le (.real x)) ∧
      thresholds.sampleSize signal - k + 1 ≤ chosen.length ∧
      (exceeding agent (·.numbers column) v calls).length ≤ thresholds.sampleSize signal - k ∧
      ∀ (order : SortOrder) (limit : ℕ), 1 ≤ limit → limit < Number.wordEnd →
        ∃ rows, CallTable.fetch (some calls) compilation.predicates order ⟨0, some limit⟩ =
          .ok rows ∧ rows ≠ [] := by
  obtain ⟨own, values, perm, taken, ranked, size⟩ := AnomalyWatch.compute_ok all computed reached
  rw [Signal.values_column numeric] at taken
  cases taken
  have numbers : ∀ n ∈ (own.filterMap (·.numbers column)).map Number.real, n.isNan = false := by
    intro n hn
    obtain ⟨x, hx, rfl⟩ := List.mem_map.mp hn
    obtain ⟨call, hcall, found⟩ := List.mem_filterMap.mp hx
    have inside : call ∈ calls := (List.mem_filter.mp (perm.subset hcall)).1
    exact stored.hasNumbers call inside column x found
  have asks : asksShare w.percentile := percentile ▸ asksShare_ninetyFive
  obtain ⟨k, hrank, one, inside, low, high⟩ := nearestRank_tail numbers asks ranked
  rw [List.length_map, ← size] at hrank inside low high
  rw [← length_reaching perm] at low
  rw [← length_exceeding perm] at high
  obtain ⟨compilation, compiled, -, selected⟩ :=
    signal.query_found reached types now agent calls
  have amounts : signal.amount = (·.numbers column) :=
    funext fun call ↦ Signal.amount_column numeric
  rw [amounts] at selected
  refine ⟨k, compilation, _, hrank, one, inside, compiled, selected, ?_, low, high, ?_⟩
  · intro call
    exact mem_reaching_iff
  · intro order limit
    exact CallTable.first_page selected (by omega) order

def oneSecond : Double := .ofBits 0x3ff0000000000000

def twoSeconds : Double := .ofBits 0x4000000000000000

def fourSeconds : Double := .ofBits 0x4010000000000000

def timedRecord (agent : String) (seconds : Json) : Json :=
  .obj [("agent_id", .str agent), ("duration_seconds", seconds)]

def timedRow (seconds : Json) : Json :=
  .obj [("duration_seconds", seconds), ("avg_latency", .null), ("total_llm_cost", .null),
    ("total_tts_cost", .null), ("total_stt_cost", .null), ("metadata", .null)]

def timedRows : List Json :=
  [timedRow (.real oneSecond), timedRow (.real twoSeconds), timedRow .null,
    timedRow (.real twoSeconds)]

def timedThresholds : Thresholds where
  duration := some twoSeconds
  samples := [(.duration, 3), (.cost, 0), (.latency, 0)]

theorem seconds_ordered :
    (Number.real oneSecond).le (.real twoSeconds) ∧
      (Number.real twoSeconds).le (.real oneSecond) = false := by
  decide +kernel

theorem twoSeconds_le : (Number.real twoSeconds).le (.real twoSeconds) :=
  Number.le_self rfl

theorem compute_timed : Thresholds.compute 1 (.int 95) timedRows = .ok timedThresholds := by
  have duration : Signal.duration.values timedRows = .ok [oneSecond, twoSeconds, twoSeconds] := rfl
  have cost : Signal.cost.values timedRows = .ok [] := by decide +kernel
  have latency : Signal.latency.values timedRows = .ok [] := rfl
  have below := seconds_ordered.1
  have chosen := Thresholds.ofValues_three below twoSeconds_le below (by decide)
  exact Thresholds.compute_of_values duration cost latency chosen rfl rfl

/-- Of the calls of an agent, the two at the threshold are found; one call has no duration, and a
longer one is of another agent. -/
theorem signal_tail_timedCalls :
    ∃ brief tied silent last other,
      CallTable.Stored (some [brief, tied, silent, last, other]) ∧
      (eagerWatch.compute (AgentSearch.readerOf (some [brief, tied, silent, last, other])
        (.startOf default)) (.int 0) "a").thresholds = .ok timedThresholds ∧
      timedThresholds.get? .duration = some twoSeconds ∧
      ∃ compilation chosen, Compile.query (Signal.duration.query [] (.startOf default) "a"
          timedThresholds) = .ok compilation ∧
        CallTable.select (some [brief, tied, silent, last, other]) compilation.predicates =
          .ok chosen ∧
        tied ∈ chosen ∧ last ∈ chosen ∧ brief ∉ chosen ∧ silent ∉ chosen ∧ other ∉ chosen := by
  obtain ⟨brief, tied, silent, last, other, inserted, ids, agents, rows, numbers⟩ :
      ∃ brief tied silent last other, insertRecords (.startOf default) (some [])
        [timedRecord "a" (.real oneSecond), timedRecord "a" (.real twoSeconds),
          timedRecord "a" .null, timedRecord "a" (.real twoSeconds),
          timedRecord "b" (.real fourSeconds)] =
        .ok (some [brief, tied, silent, last, other]) ∧
      [brief, tied, silent, last, other].map Call.id = [1, 2, 3, 4, 5] ∧
      [brief, tied, silent, last, other].map Call.agent = ["a", "a", "a", "a", "b"] ∧
      [brief, tied, silent, last].map Call.signalRow = timedRows ∧
      [brief, tied, silent, last].map (·.numbers .duration) =
        [some oneSecond, some twoSeconds, none, some twoSeconds] :=
    ⟨_, _, _, _, _, rfl, rfl, rfl, rfl, rfl⟩
  have stored : CallTable.Stored (some [brief, tied, silent, last, other]) :=
    .insert .empty inserted
  simp only [List.map_cons, List.map_nil, List.cons.injEq, and_true] at ids agents numbers
  have own : [brief, tied, silent, last, other].filter (·.agent == "a") =
      [brief, tied, silent, last] := by simp [agents]
  have computed : (eagerWatch.compute (AgentSearch.readerOf
      (some [brief, tied, silent, last, other]) (.startOf default)) (.int 0) "a").thresholds =
        .ok timedThresholds := by
    refine AnomalyWatch.compute_own rfl ?_ ?_ _ _
    · rw [own]
      simp [ids]
    · rw [own, rows]
      exact compute_timed
  have reached : timedThresholds.get? .duration = some twoSeconds := rfl
  obtain ⟨k, compilation, chosen, -, -, -, compiled, selected, members, -⟩ :=
    signal_tail stored rfl rfl rfl computed reached []
  refine ⟨brief, tied, silent, last, other, stored, computed, reached, compilation, chosen, compiled,
    selected, (members tied).mpr ⟨by simp, agents.2.1, _, numbers.2.1, twoSeconds_le⟩,
    (members last).mpr ⟨by simp, agents.2.2.2.1, _, numbers.2.2.2, twoSeconds_le⟩, ?_, ?_, ?_⟩
  · intro inside
    obtain ⟨-, -, x, known, above⟩ := (members brief).mp inside
    obtain rfl := Option.some.inj (numbers.1.symm.trans known)
    exact absurd above (by simp [seconds_ordered.2])
  · intro inside
    obtain ⟨-, -, x, known, -⟩ := (members silent).mp inside
    cases numbers.2.2.1.symm.trans known
  · intro inside
    have owner := ((members other).mp inside).2.1
    rw [agents.2.2.2.2] at owner
    exact absurd owner (by decide)

end CallSearch
