import CallSearch.Proofs.Anomaly.Signals
import CallSearch.Proofs.Store.Cell
import CallSearch.Proofs.Store.Member

namespace CallSearch

section Charge

variable {call : Call} {value : Json}

def Call.charge (call : Call) : Json :=
  ((call.payloads .metadata).getD .null).lookup "customer_charge"

/-- Charges that the store reads as they are meant: whole numbers of 64 bits, texts of whole numbers,
and all others that its cast of their text leaves as they are. -/
inductive PlainCharge : Json → Prop
  | whole {n : ℤ} (fits : (Number.int n).fits) : PlainCharge (.int n)
  | digits {cs : List Char} (written : WrittenWhole cs) : PlainCharge (.str (String.ofList cs))
  | exact {value : Json} {x : Double} (read : value.toDouble? = .ok (some x))
      (cast : value.storeText?.map Cell.leadingDouble = some x) : PlainCharge value

theorem cast_int {n : ℤ} (fits : (Number.int n).fits) :
    (Json.int n).storeText?.map Cell.leadingDouble = some (Double.ofInt n) := by
  have small : n.natAbs < 10 ^ 19 := by
    simp only [Number.fits, Bool.and_eq_true, decide_eq_true_eq] at fits
    omega
  have text : (Json.int n).storeText? = some (String.ofList (Json.intChars n)) := by
    rw [Json.storeText?, Number.ofInt, if_pos fits]
    rfl
  rw [text, Option.map_some, leadingDouble_whole small]

theorem PlainCharge.read_alike (plain : PlainCharge value) {charge : Option Double}
    (read : value.toDouble? = .ok charge) : value.storeText?.map Cell.leadingDouble = charge := by
  cases plain with
  | @whole n fits =>
    obtain ⟨x, hx, rfl⟩ := ok_map_iff.mp read
    rw [cast_int fits, Number.ofInt_of_toDouble hx]
  | digits written =>
    rw [Json.toDouble?, written.ofText?_eq] at read
    cases read
    rfl
  | exact known cast =>
    cases known.symm.trans read
    exact cast

theorem PlainCharge.storeText?_ne_none (plain : PlainCharge value) : value.storeText? ≠ none := by
  cases plain with
  | whole | digits => exact Option.some_ne_none _
  | exact known cast =>
    intro nothing
    rw [nothing] at cast
    cases cast

def Call.metadata (call : Call) : Json := (call.payloads .metadata).getD .null

theorem Call.charge_eq : call.charge = (call.metadata.member? "customer_charge").getD .null := by
  have path : Json.pathNames "customer_charge" = ["customer_charge"] := rfl
  rw [charge, Json.lookup, Json.lookup?, path, Json.walk?, ← metadata]
  cases call.metadata.member? "customer_charge" <;> rfl

theorem amount_cost (free : call.metadata.NulFree) :
    Signal.cost.amount call = call.charge.storeText?.map Cell.leadingDouble := by
  have plain : Json.isPlainName "customer_charge" := by decide
  change (call.metadata.memberText? ["customer_charge"]).map Cell.leadingDouble = _
  rw [Json.memberText?_single plain, Json.storedMember?_eq free, Call.charge_eq]
  cases call.metadata.member? "customer_charge" <;> rfl

theorem callCost_eq : Signal.callCost call.signalRow = do
    match ← call.charge.toDouble? with
    | some x => return some x
    | none =>
      let total ← Signal.partsCost call.signalRow
      return if (Number.int 0).lt (.real total) then some total else none := rfl

theorem callCost_plain (free : call.metadata.NulFree) (plain : PlainCharge call.charge)
    {cost : Option Double} (read : Signal.callCost call.signalRow = .ok cost) :
    Signal.cost.amount call = cost ∧ cost ≠ none := by
  rw [callCost_eq] at read
  obtain ⟨charge, found, read⟩ := ok_of_bind read
  have alike := plain.read_alike found
  have some := plain.storeText?_ne_none
  rw [amount_cost free, alike]
  cases charge with
  | some x =>
    cases read
    exact ⟨rfl, Option.some_ne_none x⟩
  | none => exact absurd (Option.map_eq_none_iff.mp alike) some

end Charge

/-- The query for the signal of cost finds exactly the calls of the agent whose charge, as the store
reads it, reaches the threshold. So a call with a plain charge is found if what it costs reaches the
threshold, and a call without a charge is not found, whatever it costs. -/
theorem charges_found {calls : List Call} {agent : String} {now : Timestamp} {seconds : Number}
    {w : AnomalyWatch} {thresholds : Thresholds} {v : Double} (all : w.lookbackDays = none)
    (computed : (w.compute (AgentSearch.readerOf (some calls) now) seconds agent).thresholds =
      .ok thresholds)
    (reached : thresholds.get? .cost = some v) (types : Compile.ColumnTypes) :
    ∃ (compilation : Compilation) (chosen : List Call),
      Compile.query (Signal.cost.query types now agent thresholds) = .ok compilation ∧
      CallTable.select (some calls) compilation.predicates = .ok chosen ∧
      (∀ call, call ∈ chosen ↔ call ∈ calls ∧ call.agent = agent ∧
        ∃ x, Signal.cost.amount call = some x ∧ (Number.real v).le (.real x)) ∧
      (∀ call ∈ calls, call.agent = agent → call.metadata.NulFree → PlainCharge call.charge →
        (call ∈ chosen ↔
          ∃ x, Signal.callCost call.signalRow = .ok (some x) ∧ (Number.real v).le (.real x))) ∧
      ∀ call ∈ chosen, call.metadata.NulFree → call.charge.isNull = false := by
  obtain ⟨compilation, compiled, -, selected⟩ :=
    Signal.cost.query_found reached types now agent calls
  obtain ⟨own, values, perm, taken, -⟩ := AnomalyWatch.compute_ok all computed reached
  obtain ⟨costs, taken, -⟩ := ok_map_iff.mp taken
  refine ⟨compilation, _, compiled, selected, fun call ↦ mem_reaching_iff, ?_, ?_⟩
  · intro call hcall owner free plain
    have inside : call ∈ own := by
      rw [perm.mem_iff, List.mem_filter]
      exact ⟨hcall, beq_iff_eq.mpr owner⟩
    obtain ⟨cost, read⟩ := ok_of_mapM taken (List.mem_map_of_mem inside)
    obtain ⟨amount, -⟩ := callCost_plain free plain read
    have read : Signal.callCost call.signalRow = .ok cost := read
    rw [mem_reaching_iff, amount, read]
    simp [hcall, owner]
  · intro call hcall free
    obtain ⟨-, -, x, amount, -⟩ := mem_reaching_iff.mp hcall
    rw [amount_cost free] at amount
    cases charge : call.charge <;> simp_all [Json.storeText?, Json.isNull]

def five : Double := .ofBits 0x4014000000000000

def three : Double := .ofBits 0x4008000000000000

def chargeRecord (agent : String) (metadata : Json) : Json :=
  .obj [("agent_id", .str agent), ("metadata", metadata)]

def chargeRow (metadata : Json) : Json :=
  .obj [("duration_seconds", .null), ("avg_latency", .null), ("total_llm_cost", .null),
    ("total_tts_cost", .null), ("total_stt_cost", .null), ("metadata", metadata)]

def charged (charge : Json) : Json := .obj [("customer_charge", charge)]

def chargedThresholds : Thresholds where
  cost := some five
  samples := [(.duration, 0), (.cost, 3), (.latency, 0)]

def chargedRows : List Json :=
  [chargeRow (charged (.int 3)), chargeRow (charged (.int 5)), chargeRow .null,
    chargeRow (charged (.str "5"))]

theorem callCost_charged :
    Signal.callCost (chargeRow (charged (.int 3))) = .ok (some three) ∧
      Signal.callCost (chargeRow (charged (.int 5))) = .ok (some five) ∧
      Signal.callCost (chargeRow .null) = .ok none ∧
      Signal.callCost (chargeRow (charged (.str "5"))) = .ok (some five) := by
  decide +kernel

theorem charges_ordered :
    (Number.real three).le (.real five) ∧ (Number.real five).le (.real three) = false := by
  decide +kernel

theorem five_le : (Number.real five).le (.real five) :=
  Number.le_self rfl

theorem compute_charged : Thresholds.compute 1 (.int 95) chargedRows = .ok chargedThresholds := by
  have duration : Signal.duration.values chargedRows = .ok [] := rfl
  have latency : Signal.latency.values chargedRows = .ok [] := rfl
  obtain ⟨low, tied, uncharged, quoted⟩ := callCost_charged
  have each : List.Forall₂ (fun row x ↦ Signal.cost.value row = .ok x) chargedRows
      [some three, some five, none, some five] :=
    .cons low (.cons tied (.cons uncharged (.cons quoted .nil)))
  have cost : Signal.cost.values chargedRows = .ok [three, five, five] :=
    Signal.values_of_each each
  have below := charges_ordered.1
  have chosen := Thresholds.ofValues_three below five_le below (by decide)
  exact Thresholds.compute_of_values duration cost latency rfl chosen rfl

/-- Of the calls of an agent, the two at the threshold are found, one of them charged in a text. -/
theorem charges_found_charged :
    ∃ low tied uncharged quoted other, insertRecords (.startOf default) (some [])
        [chargeRecord "a" (charged (.int 3)), chargeRecord "a" (charged (.int 5)),
          chargeRecord "a" .null, chargeRecord "a" (charged (.str "5")),
          chargeRecord "b" (charged (.int 9))] =
        .ok (some [low, tied, uncharged, quoted, other]) ∧
      (eagerWatch.compute (AgentSearch.readerOf (some [low, tied, uncharged, quoted, other])
        (.startOf default)) (.int 0) "a").thresholds = .ok chargedThresholds ∧
      chargedThresholds.get? .cost = some five ∧
      ∃ compilation chosen, Compile.query (Signal.cost.query [] (.startOf default) "a"
          chargedThresholds) = .ok compilation ∧
        CallTable.select (some [low, tied, uncharged, quoted, other]) compilation.predicates =
          .ok chosen ∧
        tied ∈ chosen ∧ quoted ∈ chosen ∧ low ∉ chosen ∧ uncharged ∉ chosen ∧ other ∉ chosen := by
  obtain ⟨low, tied, uncharged, quoted, other, inserted, ids, agents, rows, metadata⟩ :
      ∃ low tied uncharged quoted other, insertRecords (.startOf default) (some [])
        [chargeRecord "a" (charged (.int 3)), chargeRecord "a" (charged (.int 5)),
          chargeRecord "a" .null, chargeRecord "a" (charged (.str "5")),
          chargeRecord "b" (charged (.int 9))] =
        .ok (some [low, tied, uncharged, quoted, other]) ∧
      [low, tied, uncharged, quoted, other].map Call.id = [1, 2, 3, 4, 5] ∧
      [low, tied, uncharged, quoted, other].map Call.agent = ["a", "a", "a", "a", "b"] ∧
      [low, tied, uncharged, quoted].map Call.signalRow = chargedRows ∧
      [low, tied, uncharged, quoted].map Call.metadata =
        [charged (.int 3), charged (.int 5), .null, charged (.str "5")] :=
    ⟨_, _, _, _, _, rfl, rfl, rfl, rfl, rfl⟩
  simp only [List.map_cons, List.map_nil, List.cons.injEq, and_true] at ids agents metadata
  have own : [low, tied, uncharged, quoted, other].filter (·.agent == "a") =
      [low, tied, uncharged, quoted] := by simp [agents]
  have computed : (eagerWatch.compute (AgentSearch.readerOf
      (some [low, tied, uncharged, quoted, other]) (.startOf default)) (.int 0) "a").thresholds =
        .ok chargedThresholds := by
    refine AnomalyWatch.compute_own rfl ?_ ?_ _ _
    · rw [own]
      simp [ids]
    · rw [own, rows]
      exact compute_charged
  have reached : chargedThresholds.get? .cost = some five := rfl
  obtain ⟨compilation, chosen, compiled, selected, members, plain, found⟩ :=
    charges_found rfl computed reached []
  obtain ⟨lowRow, tiedRow, -, quotedRow⟩ : low.signalRow = chargeRow (charged (.int 3)) ∧
      tied.signalRow = chargeRow (charged (.int 5)) ∧ uncharged.signalRow = chargeRow .null ∧
        quoted.signalRow = chargeRow (charged (.str "5")) := by
    simpa [chargedRows] using rows
  have known {call : Call} {charge : Json} (h : call.metadata = charged charge) :
      call.metadata.NulFree ∧ call.charge = charge := by
    rw [Call.charge_eq, h]
    exact ⟨by simp [charged, Json.NulFree, Json.members], rfl⟩
  obtain ⟨cheap, tied_cost, -, quoted_cost⟩ := callCost_charged
  refine ⟨low, tied, uncharged, quoted, other, inserted, computed, reached, compilation, chosen,
    compiled, selected, ?_, ?_, ?_, ?_, ?_⟩
  · obtain ⟨free, charge⟩ := known metadata.2.1
    rw [plain tied (by simp) agents.2.1 free (charge ▸ .whole (by decide)), tiedRow]
    exact ⟨five, tied_cost, five_le⟩
  · obtain ⟨free, charge⟩ := known metadata.2.2.2
    have digits : PlainCharge (.str "5") := .digits (WrittenWhole.of_intChars (n := 5) (by decide))
    rw [plain quoted (by simp) agents.2.2.2.1 free (charge ▸ digits), quotedRow]
    exact ⟨five, quoted_cost, five_le⟩
  · obtain ⟨free, charge⟩ := known metadata.1
    rw [plain low (by simp) agents.1 free (charge ▸ .whole (by decide)), lowRow]
    rintro ⟨x, cost, above⟩
    cases cheap.symm.trans cost
    exact absurd above (by simp [charges_ordered.2])
  · intro inside
    have free : uncharged.metadata.NulFree := by simp [metadata, Json.NulFree, Json.members]
    have charge := found uncharged inside free
    rw [Call.charge_eq, metadata.2.2.1] at charge
    cases charge
  · intro inside
    have owner := ((members other).mp inside).2.1
    rw [agents.2.2.2.2] at owner
    exact absurd owner (by decide)

def unchargedRecord : Json := .obj [("agent_id", .str "a"), ("total_llm_cost", .real five)]

def unchargedRow : Json :=
  .obj [("duration_seconds", .null), ("avg_latency", .null), ("total_llm_cost", .real five),
    ("total_tts_cost", .null), ("total_stt_cost", .null), ("metadata", .null)]

def fiveThresholds : Thresholds where
  cost := some five
  samples := [(.duration, 0), (.cost, 1), (.latency, 0)]

theorem callCost_unchargedRow : Signal.callCost unchargedRow = .ok (some five) := by
  decide +kernel

theorem compute_unchargedRow :
    Thresholds.compute 1 (.int 95) [unchargedRow] = .ok fiveThresholds := by
  have duration : Signal.duration.values [unchargedRow] = .ok [] := rfl
  have latency : Signal.latency.values [unchargedRow] = .ok [] := rfl
  have each : List.Forall₂ (fun row x ↦ Signal.cost.value row = .ok x) [unchargedRow] [some five] :=
    .cons callCost_unchargedRow .nil
  have cost : Signal.cost.values [unchargedRow] = .ok [five] := Signal.values_of_each each
  have chosen := Thresholds.ofValues_one (v := five) rfl
  exact Thresholds.compute_of_values duration cost latency rfl chosen rfl

/-- The call costs as much as the threshold of cost, which is taken from it, and is not found. -/
theorem uncharged_not_found :
    ∃ call, insertRecords (.startOf default) (some []) [unchargedRecord] = .ok (some [call]) ∧
      call.agent = "a" ∧
      (eagerWatch.compute (AgentSearch.readerOf (some [call]) (.startOf default)) (.int 0)
        "a").thresholds = .ok fiveThresholds ∧
      fiveThresholds.get? .cost = some five ∧
      Signal.callCost call.signalRow = .ok (some five) ∧ (Number.real five).le (.real five) ∧
      ∃ compilation, Compile.query (Signal.cost.query [] (.startOf default) "a"
          fiveThresholds) = .ok compilation ∧
        CallTable.select (some [call]) compilation.predicates = .ok [] := by
  obtain ⟨call, inserted, agent, row, metadata⟩ : ∃ call,
      insertRecords (.startOf default) (some []) [unchargedRecord] = .ok (some [call]) ∧
        call.agent = "a" ∧ call.signalRow = unchargedRow ∧ call.metadata = .null :=
    ⟨_, rfl, rfl, rfl, rfl⟩
  have computed : (eagerWatch.compute (AgentSearch.readerOf (some [call]) (.startOf default))
      (.int 0) "a").thresholds = .ok fiveThresholds := by
    refine AnomalyWatch.compute_own rfl ?_ ?_ _ _
    · simp [agent]
    · simp only [List.filter_cons, agent, beq_self_eq_true, if_true, List.filter_nil,
        List.map_cons, List.map_nil, row]
      exact compute_unchargedRow
  have reached : fiveThresholds.get? .cost = some five := rfl
  have cost : Signal.callCost call.signalRow = .ok (some five) := by
    rw [row]
    exact callCost_unchargedRow
  obtain ⟨compilation, compiled, -, selected⟩ :=
    Signal.cost.query_found reached [] (.startOf default) "a" [call]
  have nothing : Signal.cost.amount call = none := by
    change (call.metadata.memberText? ["customer_charge"]).map Cell.leadingDouble = none
    rw [metadata]
    rfl
  have none : reaching "a" Signal.cost.amount five [call] = [] := by
    simp [reaching, nothing]
  rw [none] at selected
  exact ⟨call, inserted, agent, computed, reached, cost, five_le, compilation, compiled,
    selected⟩

end CallSearch
