import CallSearch.Proofs.Anomaly.Charge
import CallSearch.Proofs.Anomaly.Computed
import CallSearch.Proofs.Compile.Parts

namespace CallSearch

namespace AnomalyWatch

variable {w : AnomalyWatch} {reader : SignalReader} {now : Number} {agent : String} {force : Bool}

/-- Whether a read does not use what is kept, and gets a row with an oversized number. -/
def Overflows (w : AnomalyWatch) (reader : SignalReader) (now : Number) (agent : String)
    (force : Bool) : Prop :=
  (force = true ∨ w.cache.fresh? w.lifetime now agent = none) ∧
    ∃ rows, reader agent w.lookbackDays = some rows ∧ RowsOverflow rows

theorem fails_compute (now : Number) (asDefault : IsDefaultPercentile w.percentile)
    (few : ∀ rows, reader agent w.lookbackDays = some rows → rows.length < maxLength) :
    FailsIf (.number .tooLarge) (w.compute reader now agent).thresholds
      (∃ rows, reader agent w.lookbackDays = some rows ∧ RowsOverflow rows) := by
  rw [compute]
  cases read : reader agent w.lookbackDays with
  | none => exact .of_ok _ (by simp)
  | some rows =>
    have fits := Double.isFinite_ofInt_iff.mpr (isSome_ofInt?_length (few rows read))
    have fails := Thresholds.fails_compute asDefault fits w.minimum
    refine FailsIf.congr ?_ (p := RowsOverflow rows) (by simp)
    dsimp only
    cases computed : Thresholds.compute w.minimum w.percentile rows with
    | error error =>
      rw [computed] at fails
      exact fails
    | ok thresholds =>
      rw [computed] at fails
      exact fails

theorem fails_read (now : Number) (force : Bool) (asDefault : IsDefaultPercentile w.percentile)
    (few : ∀ rows, reader agent w.lookbackDays = some rows → rows.length < maxLength) :
    FailsIf (.number .tooLarge) (w.read reader now agent force).thresholds
      (w.Overflows reader now agent force) := by
  have fails := fails_compute now asDefault few
  rw [read, Overflows]
  cases force with
  | true => exact fails.congr (by simp)
  | false =>
    simp only [Bool.false_eq_true, if_false, false_or]
    cases w.cache.fresh? w.lifetime now agent with
    | none => exact fails.congr (by simp)
    | some thresholds => exact .of_ok thresholds (by simp)

theorem after_of_overflows (asDefault : IsDefaultPercentile w.percentile)
    (few : ∀ rows, reader agent w.lookbackDays = some rows → rows.length < maxLength)
    (overflows : w.Overflows reader now agent force) :
    (w.read reader now agent force).after = w := by
  have failed := (fails_read now force asDefault few).1 overflows
  unfold read compute at failed ⊢
  split at failed
  · rfl
  · split at failed
    · rfl
    · split at failed
      · rfl
      · cases failed

end AnomalyWatch

theorem overflows_signalRow_iff {call : Call} :
    (∃ signal, Signal.Overflows call.signalRow signal) ↔ call.charge.Oversized := by
  have number (column : NumberColumn) :
      ¬((call.numbers column).elim Json.null Json.real).Oversized := by
    cases call.numbers column <;> simp [Json.Oversized]
  constructor
  · rintro ⟨signal, overflows⟩
    cases signal with
    | duration => exact absurd overflows (number .duration)
    | latency => exact absurd overflows (number .latency)
    | cost =>
      rcases overflows with charged | ⟨-, part, among, oversized⟩
      · exact charged
      · simp only [Signal.costParts, List.mem_cons, List.not_mem_nil, or_false] at among
        rcases among with rfl | rfl | rfl
        · exact absurd oversized (number .llmCost)
        · exact absurd oversized (number .ttsCost)
        · exact absurd oversized (number .sttCost)
  · intro oversized
    exact ⟨.cost, .inl oversized⟩

namespace AgentSearch

variable {s : AgentSearch} {table : CallTable} {clock : Clock} {toggles : List Toggle}

/-- Whether a search asks for a signal, has no thresholds that are fresh, and takes them from a call
that was charged an oversized number. -/
def Overflows (s : AgentSearch) (table : CallTable) (clock : Clock) (toggles : List Toggle) :
    Prop :=
  toggles ≠ [] ∧ s.watch.cache.fresh? s.watch.lifetime clock.seconds s.agent = none ∧
    ∃ calls, table.signalCalls clock.now s.agent s.watch.lookbackDays = .ok calls ∧
      ∃ call ∈ calls, call.charge.Oversized

theorem length_signalCalls {now : Timestamp} {agent : String} {days : Option Int}
    {calls : List Call} (read : table.signalCalls now agent days = .ok calls) :
    calls.length ≤ (table.getD []).length := by
  have since (keep : Call → Bool) (read : ((table.ofAgent agent).mapError LookbackError.query >>=
      fun own ↦ pure (({ column := "id", ascending := true } : SortOrder).list (own.filter keep))) =
        .ok calls) : calls.length ≤ (table.getD []).length := by
    obtain ⟨own, owned, read⟩ := ok_of_bind read
    cases read
    rw [(SortOrder.list_perm _ _).length_eq]
    cases table with
    | none => cases owned
    | some all =>
      cases owned
      exact (List.length_filter_le _ _).trans (List.length_filter_le _ _)
  unfold CallTable.signalCalls at read
  cases days with
  | none => exact since _ read
  | some days =>
    dsimp only at read
    split at read
    · exact since _ read
    · obtain ⟨_, -, read⟩ := ok_of_bind read
      exact since _ read

theorem readerOf_eq_some_iff {now : Timestamp} {agent : String} {days : Option Int}
    {rows : List Json} :
    readerOf table now agent days = some rows ↔
      ∃ calls, table.signalCalls now agent days = .ok calls ∧ calls.map Call.signalRow = rows := by
  rw [readerOf]
  cases table.signalCalls now agent days <;> simp [Except.toOption]

theorem overflows_readerOf_iff {now : Timestamp} {agent : String} {days : Option Int} :
    (∃ rows, readerOf table now agent days = some rows ∧ RowsOverflow rows) ↔
      ∃ calls, table.signalCalls now agent days = .ok calls ∧
        ∃ call ∈ calls, call.charge.Oversized := by
  simp only [readerOf_eq_some_iff, ← overflows_signalRow_iff]
  constructor
  · rintro ⟨_, ⟨calls, read, rfl⟩, row, inside, overflows⟩
    obtain ⟨call, among, rfl⟩ := List.mem_map.mp inside
    exact ⟨calls, read, call, among, overflows⟩
  · rintro ⟨calls, read, call, among, overflows⟩
    exact ⟨_, ⟨calls, read, rfl⟩, _, List.mem_map_of_mem among, overflows⟩

theorem fails_thresholdsFor (asDefault : IsDefaultPercentile s.watch.percentile)
    (few : (table.getD []).length < maxLength) :
    FailsIf (.number .tooLarge) (s.thresholdsFor table clock toggles).1
      (s.Overflows table clock toggles) := by
  rw [thresholdsFor, Overflows]
  cases toggles with
  | nil => exact .of_ok none (by simp)
  | cons toggle rest =>
    have rows : ∀ rows, readerOf table clock.now s.agent s.watch.lookbackDays = some rows →
        rows.length < maxLength := by
      intro rows read
      obtain ⟨calls, own, rfl⟩ := readerOf_eq_some_iff.mp read
      rw [List.length_map]
      exact (length_signalCalls own).trans_lt few
    have fails := AnomalyWatch.fails_read clock.seconds false asDefault rows
    refine (fails.map some).congr ?_
    rw [AnomalyWatch.Overflows, overflows_readerOf_iff]
    simp

theorem catalog_thresholdsFor (s : AgentSearch) (table : CallTable) (clock : Clock)
    (toggles : List Toggle) :
    ((s.thresholdsFor table clock toggles).2.catalog table clock none false).1 =
      (s.catalog table clock none false).1 := by
  unfold thresholdsFor
  split <;> rfl

variable {request : SearchRequest} {supply : IdSupply}

theorem compile_failed {e : PercentileError}
    (failed : (s.thresholdsFor table clock request.toggles).1 = .error e) :
    ((s.compile table clock request).run supply).1.1 = .error (.percentile e) := by
  simp only [compile, StateT.run]
  generalize s.thresholdsFor table clock request.toggles = outcome at failed
  obtain ⟨reached, next⟩ := outcome
  cases failed
  rfl

theorem compile_answered {found : Option Thresholds}
    (read : (s.thresholdsFor table clock request.toggles).1 = .ok found)
    (signals : ∀ toggle ∈ request.toggles, ∃ signal, toggle = .signal signal)
    (free : ∀ rule ∈ Forest.rules ((groupsOf request).run supply).1,
      ¬Compile.Blocks (Compile.columnTypes (s.catalog table clock none false).1) clock.now
        rule.toCondition) :
    ∃ compilation, ((s.compile table clock request).run supply).1.1 = .ok compilation := by
  rw [← s.catalog_thresholdsFor table clock request.toggles] at free
  simp only [compile, StateT.run]
  generalize s.thresholdsFor table clock request.toggles = outcome at read free
  obtain ⟨reached, next⟩ := outcome
  cases read
  let source : QuerySource := {
    types := Compile.columnTypes (next.catalog table clock none false).1
    now := clock.now
    owner := some (Predicate.owner next.agent)
    groups := ((groupsOf request).run supply).1
    toggles := request.toggles
    thresholds := found }
  obtain ⟨anomalies, known⟩ := Compile.anomalies_ok_iff.mpr fun _ ↦ signals
  have rules := Compile.rules_eq_ok_iff.mpr ⟨free, rfl⟩
  have compiled := Compile.query_of source rules known
  exact ⟨_, congrArg (Except.mapError SearchError.stop) compiled⟩

/-- Thresholds of the default percentile are read, whatever rows there are and whether they can be
had, unless a row has an oversized number where a signal is measured. Then the read fails and keeps
nothing, and a search that needs such thresholds fails with it. -/
theorem thresholds_overflow (s : AgentSearch) (asDefault : IsDefaultPercentile s.watch.percentile) :
    (∀ reader now agent force,
      (∀ rows, reader agent s.watch.lookbackDays = some rows → rows.length < maxLength) →
        let outcome := s.watch.read reader now agent force
        ((∃ thresholds, outcome.thresholds = .ok thresholds) ↔
          ¬s.watch.Overflows reader now agent force) ∧
        (s.watch.Overflows reader now agent force →
          outcome.thresholds = .error (.number .tooLarge) ∧ outcome.after = s.watch)) ∧
    ∀ table clock request supply, (table.getD []).length < maxLength →
      let answer := ((s.compile table clock request).run supply).1.1
      (s.Overflows table clock request.toggles →
        answer = .error (.percentile (.number .tooLarge))) ∧
      (¬s.Overflows table clock request.toggles →
        (∀ toggle ∈ request.toggles, ∃ signal, toggle = .signal signal) →
        (∀ rule ∈ Forest.rules ((groupsOf request).run supply).1,
          ¬Compile.Blocks (Compile.columnTypes (s.catalog table clock none false).1) clock.now
            rule.toCondition) →
        ∃ compilation, answer = .ok compilation) := by
  constructor
  · intro reader now agent force few
    have fails := AnomalyWatch.fails_read now force asDefault few
    exact ⟨fails.ok_iff, fun overflows ↦
      ⟨fails.1 overflows, AnomalyWatch.after_of_overflows asDefault few overflows⟩⟩
  · intro table clock request supply few
    have fails : FailsIf _ (s.thresholdsFor table clock request.toggles).1 _ :=
      fails_thresholdsFor asDefault few
    constructor
    · intro overflows
      exact compile_failed (fails.1 overflows)
    · intro fine signals free
      obtain ⟨found, read⟩ := fails.2 fine
      exact compile_answered read signals free

def overchargedCall : Call where
  id := 1
  agent := "a"
  createdAt := .startOf default
  texts _ := none
  times _ := none
  numbers _ := none
  payloads
    | .metadata => some (.obj [("customer_charge", .int (2 ^ 1024))])
    | _ => none

def durationRequest : SearchRequest where
  toggles := [.signal .duration]

theorem charge_overchargedCall : overchargedCall.charge.Oversized := by
  have charge : overchargedCall.charge = .int (2 ^ 1024) := by
    rw [Call.charge_eq]
    rfl
  have two : Int.natAbs 2 = 2 := rfl
  refine ⟨_, charge, ?_⟩
  rw [Int.natAbs_pow, two, Double.tooLargeFrom]
  omega

theorem few_overchargedCall : (Option.getD (some [overchargedCall]) []).length < maxLength := by
  decide

theorem few_overchargedRow :
    ∀ rows, some [overchargedCall.signalRow] = some rows → rows.length < maxLength := by
  rintro _ ⟨⟩
  exact few_overchargedCall

theorem read_overflows : (start "a" {}).watch.Overflows
    (fun _ _ ↦ some [overchargedCall.signalRow]) (.int 0) "a" false :=
  ⟨.inr rfl, _, rfl, _, .head _, overflows_signalRow_iff.mpr charge_overchargedCall⟩

theorem search_overflows : (start "a" {}).Overflows (some [overchargedCall])
    ⟨.startOf default, .int 0⟩ durationRequest.toggles := by
  obtain ⟨own, read, perm⟩ := CallTable.signalCalls_all [overchargedCall] (.startOf default) "a"
  have inside : overchargedCall ∈ own := perm.mem_iff.mpr (.head _)
  exact ⟨List.cons_ne_nil _ _, rfl, own, read, _, inside, charge_overchargedCall⟩

/-- The charge of one agent's call is in the way of all searches of this agent for a signal, and of
no search of another agent. -/
theorem thresholds_overflow_overcharged :
    ((start "a" {}).watch.read (fun _ _ ↦ some [overchargedCall.signalRow]) (.int 0) "a"
        false).after = (start "a" {}).watch ∧
      (((start "a" {}).compile (some [overchargedCall]) ⟨.startOf default, .int 0⟩
        durationRequest).run ⟨0⟩).1.1 = .error (.percentile (.number .tooLarge)) ∧
      ∃ compilation, (((start "b" {}).compile (some [overchargedCall]) ⟨.startOf default, .int 0⟩
        durationRequest).run ⟨0⟩).1.1 = .ok compilation := by
  obtain ⟨read, compiled⟩ := thresholds_overflow (start "a" {}) rfl
  obtain ⟨-, others⟩ := thresholds_overflow (start "b" {}) rfl
  refine ⟨?_, ?_, ?_⟩
  · exact ((read _ (.int 0) "a" false few_overchargedRow).2 read_overflows).2
  · exact (compiled _ _ durationRequest ⟨0⟩ few_overchargedCall).1 search_overflows
  · refine (others _ _ durationRequest ⟨0⟩ few_overchargedCall).2 ?_ ?_ ?_
    · rintro ⟨-, -, calls, found, call, inside, -⟩
      obtain ⟨own, read, perm⟩ := CallTable.signalCalls_all [overchargedCall] (.startOf default) "b"
      cases found.symm.trans read
      cases perm.mem_iff.mp inside
    · simp [durationRequest]
    · intro rule inside
      cases inside

/-- A row with an oversized charge makes the whole read fail, and such a call a search. -/
theorem overcharged_not_read :
    ((start "a" {}).watch.read (fun _ _ ↦ some [overchargedCall.signalRow]) (.int 0) "a"
      false).thresholds = .error (.number .tooLarge) ∧
    (((start "a" {}).compile (some [overchargedCall]) ⟨.startOf default, .int 0⟩
        durationRequest).run ⟨0⟩).1.1 = .error (.percentile (.number .tooLarge)) := by
  have asDefault : IsDefaultPercentile (start "a" {}).watch.percentile := rfl
  constructor
  · exact (AnomalyWatch.fails_read _ _ asDefault few_overchargedRow).1 read_overflows
  · exact compile_failed ((fails_thresholdsFor asDefault few_overchargedCall).1 search_overflows)

end AgentSearch

end CallSearch
