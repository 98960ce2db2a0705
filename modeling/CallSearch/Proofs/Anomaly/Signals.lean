import CallSearch.AgentSearch
import CallSearch.Proofs.Compile.Query
import CallSearch.Proofs.Store.Match
import CallSearch.Proofs.Store.Order

namespace CallSearch

section Reaching

/-- The calls of an agent of which an amount is known that is at least some value. -/
def reaching (agent : String) (amount : Call → Option Double) (v : Double) (calls : List Call) :
    List Call :=
  calls.filter fun call ↦ call.agent == agent &&
    (amount call).any fun x ↦ (Number.real v).le (.real x)

/-- The calls of an agent of which an amount is known that is more than some value. -/
def exceeding (agent : String) (amount : Call → Option Double) (v : Double) (calls : List Call) :
    List Call :=
  calls.filter fun call ↦ call.agent == agent &&
    (amount call).any fun x ↦ (Number.real v).lt (.real x)

variable {agent : String} {amount : Call → Option Double} {v : Double} {calls : List Call}

theorem mem_reaching_iff {call : Call} :
    call ∈ reaching agent amount v calls ↔
      call ∈ calls ∧ call.agent = agent ∧
        ∃ x, amount call = some x ∧ (Number.real v).le (.real x) := by
  simp [reaching, Option.any_eq_true]

theorem Number.same_comm (m n : Number) : m.same n = n.same m := by
  unfold same
  cases m.place? <;> cases n.place? <;> simp [eq_comm]

theorem holds_atLeast (amount : Option Double) (v : Double) :
    Relation.atLeast.holds (amount.elim .null Cell.ofDouble) (.number (.real v)) =
      amount.any fun x ↦ (Number.real v).le (.real x) := by
  cases amount with
  | none => rfl
  | some x =>
    rw [Option.elim_some, Option.any_some, Cell.ofDouble]
    split
    · next nan =>
      have nowhere : (Number.real x).place? = none := Number.place?_eq_none_iff.mpr nan
      simp [Relation.holds, Cell.equal, Cell.before, Number.le, Number.lt, Number.same, nowhere]
    · simp [Relation.holds, Cell.equal, Cell.before, Number.le, Number.same_comm, Bool.or_comm]

theorem select_reaching {p : Predicate} {source : Source}
    (translated : Test.ofPredicate p = .ok (.compare source .atLeast (.number (.real v))))
    (cells : ∀ call, source.cell call = (amount call).elim .null Cell.ofDouble) :
    CallTable.select (some calls) [Predicate.owner agent, p] =
      .ok (reaching agent amount v calls) := by
  have holds (call : Call) :
      Test.holds call (.compare source .atLeast (.number (.real v))) =
        .ok ((amount call).any fun x ↦ (Number.real v).le (.real x)) := by
    rw [Test.holds, cells, holds_atLeast]
  exact CallTable.select_owned translated rfl holds agent calls

end Reaching

namespace Signal

/-- The amount that the store reads of a call for a signal. -/
def amount : Signal → Call → Option Double
  | .duration, call => call.numbers .duration
  | .cost, call =>
    (((call.payloads .metadata).getD .null).memberText? ["customer_charge"]).map Cell.leadingDouble
  | .latency, call => call.numbers .latency

def source : Signal → Source
  | .duration => ⟨.number .duration, none, false⟩
  | .cost => ⟨.payload .metadata, some ["customer_charge"], true⟩
  | .latency => ⟨.number .latency, none, false⟩

variable {signal : Signal} {call : Call} {v : Double} {thresholds : Thresholds} {agent : String}

theorem cell_source : signal.source.cell call = (signal.amount call).elim .null Cell.ofDouble := by
  cases signal with
  | duration | latency => rfl
  | cost =>
    simp only [source, amount, Source.cell, Source.plainCell, if_true]
    cases ((call.payloads .metadata).getD .null).memberText? ["customer_charge"] <;> rfl

theorem ofPredicate_target :
    Test.ofPredicate ⟨Compile.signalTarget signal, .atLeast, .number (.real v)⟩ =
      .ok (.compare signal.source .atLeast (.number (.real v))) := by
  have parsed : ∃ e, Expression.parse (Compile.signalTarget signal) = .ok e ∧
      Source.ofExpression e = .ok signal.source := by
    cases signal with
    | duration => exact ⟨⟨"duration_seconds", none, false⟩, rfl, rfl⟩
    | cost => exact ⟨⟨"metadata", some "customer_charge", true⟩, rfl, rfl⟩
    | latency => exact ⟨⟨"avg_latency", none, false⟩, rfl, rfl⟩
  obtain ⟨e, hparse, hsource⟩ := parsed
  have numeric : signal.source.affinity = .numeric := by cases signal <;> rfl
  simp only [Test.ofPredicate, Predicate.expression, hparse, hsource, Except.mapError, bind,
    Except.bind, Test.coerce, Test.order, Test.comparison, numeric]
  rfl

/-- The query for the calls of an agent whose signal reaches its threshold. -/
def query (signal : Signal) (types : Compile.ColumnTypes) (now : Timestamp) (agent : String)
    (thresholds : Thresholds) : QuerySource where
  types := types
  now := now
  owner := some (Predicate.owner agent)
  groups := []
  toggles := [.signal signal]
  thresholds := some thresholds

theorem anomalies_signal (reached : thresholds.get? signal = some v) :
    Compile.anomalies [.signal signal] (some thresholds) =
      .ok [⟨Compile.signalTarget signal, .atLeast, .number (.real v)⟩] := by
  have active : Compile.signals [.signal signal] = .ok [signal] := rfl
  have alone : Signal.all.filter ([signal].contains ·) = [signal] := by cases signal <;> rfl
  have predicate : Compile.thresholdPredicate? thresholds signal =
      some ⟨Compile.signalTarget signal, .atLeast, .number (.real v)⟩ := by
    rw [Compile.thresholdPredicate?, reached, Option.map_some]
  simp only [Compile.anomalies, active, Except.map, alone, List.filterMap_cons, predicate,
    List.filterMap_nil]

theorem query_found (reached : thresholds.get? signal = some v) (types : Compile.ColumnTypes)
    (now : Timestamp) (agent : String) (calls : List Call) :
    ∃ compilation, Compile.query (signal.query types now agent thresholds) = .ok compilation ∧
      compilation.dropped = [] ∧
      CallTable.select (some calls) compilation.predicates =
        .ok (reaching agent signal.amount v calls) := by
  refine ⟨⟨[Predicate.owner agent, ⟨Compile.signalTarget signal, .atLeast, .number (.real v)⟩],
    []⟩, ?_, rfl, select_reaching ofPredicate_target fun call ↦ cell_source⟩
  rw [Compile.query, query, anomalies_signal reached]
  rfl

end Signal

section Computed

variable {calls : List Call} {agent : String} {now : Timestamp} {seconds : Number}
  {w : AnomalyWatch} {thresholds : Thresholds} {signal : Signal} {v : Double}
  {minimum : ℤ} {percentile : Number} {rows : List Json}

theorem CallTable.signalCalls_all (calls : List Call) (now : Timestamp) (agent : String) :
    ∃ own, CallTable.signalCalls (some calls) now agent none = .ok own ∧
      own.Perm (calls.filter (·.agent == agent)) := by
  refine ⟨_, rfl, (SortOrder.list_perm _ _).trans ?_⟩
  have all : (fun call : Call ↦ (none : Option Timestamp).all fun t ↦
      decide (t.key ≤ call.createdAt.key)) = fun _ ↦ true := rfl
  rw [all, List.filter_true]

theorem Thresholds.compute_ok (h : compute minimum percentile rows = .ok thresholds)
    (signal : Signal) :
    ∃ values, signal.values rows = .ok values ∧
      ofValues minimum percentile values = .ok (thresholds.get? signal) ∧
      thresholds.sampleSize signal = values.length := by
  obtain ⟨duration, hduration, h⟩ := ok_of_bind h
  obtain ⟨cost, hcost, h⟩ := ok_of_bind h
  obtain ⟨latency, hlatency, h⟩ := ok_of_bind h
  obtain ⟨first, hfirst, h⟩ := ok_of_bind h
  obtain ⟨second, hsecond, h⟩ := ok_of_bind h
  obtain ⟨third, hthird, h⟩ := ok_of_bind h
  cases h
  cases signal with
  | duration => exact ⟨duration, ok_of_mapError hduration, hfirst, rfl⟩
  | cost => exact ⟨cost, ok_of_mapError hcost, hsecond, rfl⟩
  | latency => exact ⟨latency, ok_of_mapError hlatency, hthird, rfl⟩

theorem Thresholds.ofValues_ok {values : List Double}
    (h : ofValues minimum percentile values = .ok (some v)) :
    nearestRank (values.map .real) percentile = .ok (some (.real v)) := by
  unfold ofValues at h
  split at h
  · cases h
  · obtain ⟨chosen, found, h⟩ := ok_map_iff.mp h
    obtain ⟨number, rfl, h⟩ := Option.bind_eq_some_iff.mp h
    cases number with
    | int n => cases h
    | real x =>
      cases h
      exact found

theorem AnomalyWatch.compute_ok (all : w.lookbackDays = none)
    (computed : (w.compute (AgentSearch.readerOf (some calls) now) seconds agent).thresholds =
      .ok thresholds) (reached : thresholds.get? signal = some v) :
    ∃ (own : List Call) (values : List Double), own.Perm (calls.filter (·.agent == agent)) ∧
      signal.values (own.map Call.signalRow) = .ok values ∧
      nearestRank (values.map .real) w.percentile = .ok (some (.real v)) ∧
      thresholds.sampleSize signal = values.length := by
  obtain ⟨own, read, perm⟩ := CallTable.signalCalls_all calls now agent
  have rows : AgentSearch.readerOf (some calls) now agent w.lookbackDays =
      some (own.map Call.signalRow) := by
    rw [all, AgentSearch.readerOf, read]
    rfl
  rw [compute, rows] at computed
  dsimp only at computed
  cases found : Thresholds.compute w.minimum w.percentile (own.map Call.signalRow) with
  | error e =>
    rw [found] at computed
    cases computed
  | ok same =>
    rw [found] at computed
    cases computed
    obtain ⟨values, taken, chosen, size⟩ := Thresholds.compute_ok found signal
    rw [reached] at chosen
    exact ⟨own, values, perm, taken, Thresholds.ofValues_ok chosen, size⟩

theorem SortOrder.list_ascending_ids {calls : List Call}
    (ordered : calls.Pairwise fun a b ↦ a.id ≤ b.id) :
    ({ column := "id", ascending := true } : SortOrder).list calls = calls := by
  refine List.mergeSort_of_pairwise (ordered.imp fun {a b} before ↦ ?_)
  have known : ({ column := "id", ascending := true } : SortOrder).target = .id := rfl
  have scaled : a.id * Double.unitsPerOne ≤ b.id * Double.unitsPerOne :=
    Int.mul_le_mul_of_nonneg_right before (Int.natCast_nonneg _)
  have kept : (Number.int b.id).lt (.int a.id) = false := decide_eq_false (Int.not_lt.mpr scaled)
  rw [precedes, if_pos rfl, known]
  simp [Call.inOrder, Call.cell, Cell.inOrder, Cell.before, kept, before]

theorem AnomalyWatch.compute_own (all : w.lookbackDays = none)
    (ordered : (calls.filter (·.agent == agent)).Pairwise fun a b ↦ a.id ≤ b.id)
    (h : Thresholds.compute w.minimum w.percentile
      ((calls.filter (·.agent == agent)).map Call.signalRow) = .ok thresholds)
    (now : Timestamp) (seconds : Number) :
    (w.compute (AgentSearch.readerOf (some calls) now) seconds agent).thresholds =
      .ok thresholds := by
  have read : CallTable.signalCalls (some calls) now agent none =
      .ok (calls.filter (·.agent == agent)) := by
    have recent : (calls.filter (·.agent == agent)).filter (fun call ↦
        (none : Option Timestamp).all fun t ↦ decide (t.key ≤ call.createdAt.key)) =
          calls.filter (·.agent == agent) := List.filter_eq_self.mpr fun _ _ ↦ rfl
    change Except.ok (SortOrder.list _ (List.filter _ _)) = _
    rw [recent, SortOrder.list_ascending_ids ordered]
  have rows : AgentSearch.readerOf (some calls) now agent w.lookbackDays =
      some ((calls.filter (·.agent == agent)).map Call.signalRow) := by
    rw [all, AgentSearch.readerOf, read]
    rfl
  rw [compute, rows]
  simp only [h]

theorem Thresholds.ofValues_ascending {values : List Double} {rank : ℤ}
    (ascending : values.Pairwise fun x y ↦ (Number.real x).le (.real y))
    (numbers : ∀ x ∈ values, x.isNan = false) (many : minimum ≤ values.length)
    (ranked : percentileRank percentile values.length = .ok rank)
    (found : values[rank.toNat - 1]? = some v) :
    ofValues minimum percentile values = .ok (some v) := by
  have kept : (values.map Number.real).filter (!·.isNan) = values.map Number.real := by
    refine List.filter_eq_self.mpr fun n among ↦ ?_
    obtain ⟨x, inside, rfl⟩ := List.mem_map.mp among
    simp [Number.isNan, numbers x inside]
  have sorted : sortedNumbers (values.map Number.real) = values.map Number.real := by
    rw [sortedNumbers, kept]
    exact List.mergeSort_of_pairwise (List.pairwise_map.mpr ascending)
  have small : (values.map Number.real).any Number.isTooLarge = false := by
    rw [List.any_map]
    exact List.any_eq_false.mpr fun x _ ↦ by simp [Number.isTooLarge, Number.toDouble]
  have some : (values.map Number.real).isEmpty = false := by
    cases values with
    | nil => simp at found
    | cons x rest => rfl
  rw [ofValues, if_neg (by omega), nearestRank, sorted, small, some, List.length_map, ranked]
  simp [atRank, found, Except.map]

theorem Signal.values_of_each {signal : Signal} {found : List (Option Double)}
    (each : List.Forall₂ (fun row x ↦ signal.value row = .ok x) rows found) :
    signal.values rows = .ok (found.filterMap id) := by
  rw [values, mapM_of_forall₂ each]
  rfl

theorem percentileRank_few :
    percentileRank (.int 95) 1 = .ok 1 ∧ percentileRank (.int 95) 3 = .ok 3 := by
  decide +kernel

theorem Thresholds.ofValues_three {x y v : Double} (first : (Number.real x).le (.real y))
    (second : (Number.real y).le (.real v)) (third : (Number.real x).le (.real v))
    (numbers : ∀ z ∈ [x, y, v], z.isNan = false) :
    ofValues 1 (.int 95) [x, y, v] = .ok (some v) :=
  ofValues_ascending (by simp [first, second, third]) numbers (by simp) percentileRank_few.2 rfl

theorem Thresholds.ofValues_one {v : Double} (number : v.isNan = false) :
    ofValues 1 (.int 95) [v] = .ok (some v) :=
  ofValues_ascending (by simp) (by simpa using number) (by simp) percentileRank_few.1 rfl

theorem Thresholds.compute_of_values {durations costs latencies : List Double}
    {first second third : Option Double} (duration : Signal.duration.values rows = .ok durations)
    (cost : Signal.cost.values rows = .ok costs)
    (latency : Signal.latency.values rows = .ok latencies)
    (hfirst : ofValues minimum percentile durations = .ok first)
    (hsecond : ofValues minimum percentile costs = .ok second)
    (hthird : ofValues minimum percentile latencies = .ok third) :
    compute minimum percentile rows =
      .ok ⟨first, second, third, [(.duration, durations.length), (.cost, costs.length),
        (.latency, latencies.length)]⟩ := by
  simp only [compute, duration, cost, latency, Except.mapError, bind, Except.bind, hfirst, hsecond,
    hthird]
  rfl

def eagerWatch : AnomalyWatch := { minimum := 1 }

end Computed

end CallSearch
