import Mathlib
import CallSearch.Proofs.Calendar.Written
import CallSearch.Proofs.Compile.Check
import CallSearch.Proofs.Store.Started

namespace CallSearch

namespace Timestamp

variable {t : Timestamp} {d : Date}

/-- The last instant of a day that is written with milliseconds. -/
def lastMilli (d : Date) : Timestamp :=
  ⟨d, Fin.last 23, Fin.last 59, Fin.last 59, ⟨999000, by decide⟩⟩

/-- Whether a time is later than the last instant of its day that is written with milliseconds. -/
def IsPastLastMilli (t : Timestamp) : Prop := (lastMilli t.date).key < t.key

theorem key_le_lastMilli_iff :
    t.key ≤ (lastMilli d).key ↔ t.date ≤ d ∧ ¬(t.date = d ∧ t.IsPastLastMilli) := by
  have same : (lastMilli d).microOfDay = (lastMilli t.date).microOfDay := rfl
  rw [← not_lt, IsPastLastMilli, key_lt_iff, key_lt_iff, same, not_or, ← not_lt]
  simp [lastMilli, eq_comm]

end Timestamp

namespace Compile

variable {types : ColumnTypes} {now : Timestamp} {d first last : Date} {raw : String}

theorem parseDay_iso : parseDay now d.iso = .ok d := by
  have length := d.length_iso
  have today : d.iso ≠ "today" := fun same ↦ absurd (same ▸ length) (by decide)
  have yesterday : d.iso ≠ "yesterday" := fun same ↦ absurd (same ▸ length) (by decide)
  have whole : String.ofList (d.iso.toList.take 10) = d.iso := by
    rw [List.take_of_length_le (by rw [String.length_toList, length]), String.ofList_toList]
  simp [parseDay, Date.strip_iso, Date.lower_iso, today, yesterday, whole, Iso.date_iso]

theorem isBlankText_of_parseDay (parsed : parseDay now raw = .ok d) :
    Text.isBlankText raw = false := by
  by_contra blank
  rw [Bool.not_eq_false] at blank
  rw [parseDay, Text.strip_of_isBlankText blank] at parsed
  cases parsed

theorem parseRange_iso :
    parseRange (first.iso ++ "," ++ last.iso) = .ok (first.iso, last.iso) := by
  have free : ',' ∉ first.iso.toList := by
    rw [Date.iso, String.toList_ofList]
    exact fun hc ↦ (Date.isoChars_quiet hc).2.2.2 rfl
  rw [parseRange_eq free Date.isBlankText_iso Date.isBlankText_iso, Date.strip_iso, Date.strip_iso]

/-- A condition on the day at which a call started. -/
def startedWhen (operation : Operation) (value : String) : Condition :=
  ⟨"call_started_at", operation.name, value, none⟩

theorem condition_startedWhen {operation : Operation} {value : String}
    (listed : operation ∈ ColumnType.date.operations) (any : Text.isBlankText value = false) :
    condition types now (startedWhen operation value) =
      operationPredicates now (startedWhen operation value) .date operation :=
  @condition_wholeColumn types now .startedAt operation value listed (by decide) any

theorem timestamp_startOfDay : Iso.timestamp (d.iso ++ " 00:00:00") = .ok (.startOf d) := by
  have clock : Iso.readTime? "00:00:00".toList = some (⟨0, 0, 0, 0, false⟩, none) := by cbv
  exact Iso.timestamp_iso rfl clock

theorem timestamp_endOfDay : Iso.timestamp (d.iso ++ " 23:59:59.999") = .ok (.lastMilli d) := by
  have clock : Iso.readTime? "23:59:59.999".toList = some (⟨23, 59, 59, 999000, false⟩, none) := by
    cbv
  exact Iso.timestamp_iso rfl clock

theorem translate_withinDays {c : Condition} (column : c.column = "call_started_at") :
    Test.ofPredicates (withinDays c first last) =
      .ok ([⟨.atLeast, .startOf first⟩, ⟨.atMost, .lastMilli last⟩].map StartBound.test) := by
  have lower : Test.ofPredicate ⟨"call_started_at", .atLeast, .text (first.iso ++ " 00:00:00")⟩ =
      .ok (StartBound.test ⟨.atLeast, .startOf first⟩) :=
    StartBound.ofPredicate_eq rfl timestamp_startOfDay
  have upper : Test.ofPredicate ⟨"call_started_at", .atMost, .text (last.iso ++ " 23:59:59.999")⟩ =
      .ok (StartBound.test ⟨.atMost, .lastMilli last⟩) :=
    StartBound.ofPredicate_eq rfl timestamp_endOfDay
  rw [withinDays, column, startOfDay, endOfDay, Test.ofPredicates_cons lower,
    Test.ofPredicates_single upper]
  rfl

theorem translate_startOfDay {operator : Operator} {relation : Relation}
    (order : operator.order? = some relation) :
    Test.ofPredicates [⟨"call_started_at", operator, startOfDay d⟩] =
      .ok ([⟨relation, .startOf d⟩].map StartBound.test) :=
  Test.ofPredicates_single (StartBound.ofPredicate_eq order timestamp_startOfDay)

/-- The calls of a table that the store finds for a condition. -/
def Finds (types : ColumnTypes) (now : Timestamp) (c : Condition) (calls chosen : List Call) :
    Prop :=
  ∃ predicates, condition types now c = .ok predicates ∧
    CallTable.select (some calls) predicates = .ok chosen

/-- Whether a condition is compiled, and the store finds for it, among the calls that started, those
that started at a time of some kind. -/
def FindsStarts (types : ColumnTypes) (now : Timestamp) (c : Condition) (calls : List Call)
    (kind : Timestamp → Prop) (chosen : List Call) : Prop :=
  Finds types now c calls chosen ∧
    ∀ call ∈ calls, ∀ t, call.times .startedAt = some t → (call ∈ chosen ↔ kind t)

theorem FindsStarts.congr {c : Condition} {calls chosen : List Call} {kind kind' : Timestamp → Prop}
    (h : FindsStarts types now c calls kind chosen) (same : ∀ t, kind t ↔ kind' t) :
    FindsStarts types now c calls kind' chosen :=
  ⟨h.1, fun call hcall t started ↦ (h.2 call hcall t started).trans (same t)⟩

theorem exists_findsStarts {c : Condition} {predicates : List Predicate} {bounds : List StartBound}
    {kind : Timestamp → Prop} (compiled : condition types now c = .ok predicates)
    (translated : Test.ofPredicates predicates = .ok (bounds.map StartBound.test))
    (few : bounds.length ≤ 993)
    (bounded : ∀ t, (∀ bound ∈ bounds, bound.relation.holds (.time t) (.time bound.instant)) ↔ kind t)
    (calls : List Call) : ∃ chosen, FindsStarts types now c calls kind chosen := by
  obtain ⟨chosen, selected, mem_iff⟩ := StartBound.select_eq translated few calls
  refine ⟨chosen, ⟨predicates, compiled, selected⟩, fun call hcall t started ↦ ?_⟩
  have cell : call.cell (.time .startedAt) = .time t := by rw [Call.cell, started, Option.elim_some]
  rw [mem_iff, ← bounded t]
  simp only [StartBound.Holds, cell, hcall, true_and]

theorem findsStarts_within {c : Condition} (column : c.column = "call_started_at")
    (compiled : condition types now c = .ok (withinDays c first last)) (calls : List Call) :
    ∃ chosen, FindsStarts types now c calls
      (fun t ↦ first ≤ t.date ∧ t.date ≤ last ∧ ¬(t.date = last ∧ t.IsPastLastMilli)) chosen := by
  refine exists_findsStarts compiled (translate_withinDays column) (by simp) (fun t ↦ ?_) calls
  simp [Timestamp.key_startOf_le_iff, Timestamp.key_le_lastMilli_iff]

theorem findsStarts_equals (types : ColumnTypes) (now : Timestamp) (d : Date) (calls : List Call) :
    ∃ chosen, FindsStarts types now (startedWhen .equals d.iso) calls
      (fun t ↦ t.date = d ∧ ¬t.IsPastLastMilli) chosen := by
  have compiled : condition types now (startedWhen .equals d.iso) =
      .ok (withinDays (startedWhen .equals d.iso) d d) := by
    rw [condition_startedWhen (by decide) Date.isBlankText_iso]
    simp [operationPredicates, startedWhen, parseDay_iso, bind, Except.bind, pure, Except.pure]
  obtain ⟨chosen, found⟩ := findsStarts_within rfl compiled calls
  refine ⟨chosen, found.congr fun t ↦ ?_⟩
  rw [← and_assoc, ← le_antisymm_iff, eq_comm, not_and]
  exact and_congr_right fun same ↦ forall_prop_of_true same

theorem findsStarts_between (types : ColumnTypes) (now : Timestamp) (first last : Date)
    (calls : List Call) :
    ∃ chosen, FindsStarts types now (startedWhen .between (first.iso ++ "," ++ last.iso)) calls
      (fun t ↦ first ≤ t.date ∧ t.date ≤ last ∧ ¬(t.date = last ∧ t.IsPastLastMilli)) chosen := by
  have any : Text.isBlankText (first.iso ++ "," ++ last.iso) = false := by
    rw [Text.isBlankText_append, Date.isBlankText_iso, Bool.and_false]
  refine findsStarts_within rfl ?_ calls
  rw [condition_startedWhen (by decide) any]
  simp [operationPredicates, startedWhen, parseRange_iso, parseDay_iso, bind, Except.bind, pure,
    Except.pure]

theorem findsStarts_lessThan (types : ColumnTypes) (parsed : parseDay now raw = .ok d)
    (calls : List Call) :
    ∃ chosen, FindsStarts types now (startedWhen .lessThan raw) calls (fun t ↦ t.date < d)
      chosen := by
  have compiled : condition types now (startedWhen .lessThan raw) =
      .ok [⟨"call_started_at", .below, startOfDay d⟩] := by
    rw [condition_startedWhen (by decide) (isBlankText_of_parseDay parsed)]
    simp [operationPredicates, startedWhen, parsed, bind, Except.bind, pure, Except.pure]
  refine exists_findsStarts compiled (translate_startOfDay rfl) (by simp) (fun t ↦ ?_) calls
  simp [Timestamp.key_lt_startOf_iff]

theorem findsStarts_greaterThan (types : ColumnTypes) (parsed : parseDay now raw = .ok d)
    (notLast : ¬d.IsLast) (calls : List Call) :
    ∃ chosen, FindsStarts types now (startedWhen .greaterThan raw) calls (fun t ↦ d < t.date)
      chosen := by
  obtain ⟨next, hnext⟩ := Option.ne_none_iff_exists'.mp (mt Date.next?_eq_none_iff.mp notLast)
  have compiled : condition types now (startedWhen .greaterThan raw) =
      .ok [⟨"call_started_at", .atLeast, startOfDay next⟩] := by
    rw [condition_startedWhen (by decide) (isBlankText_of_parseDay parsed)]
    simp [operationPredicates, startedWhen, parsed, hnext, dayOr, bind, Except.bind, pure,
      Except.pure]
  refine exists_findsStarts compiled (translate_startOfDay rfl) (by simp) (fun t ↦ ?_) calls
  simp [Timestamp.key_startOf_le_iff, Date.next?_le_iff hnext]

def ExactlyOne (p q r : Prop) : Prop := (p ∨ q ∨ r) ∧ ¬(p ∧ q) ∧ ¬(p ∧ r) ∧ ¬(q ∧ r)

/-- What the store finds for a day, for a range of days, and before and after a day. Every call that
started is found exactly once before, on or after a day that is not the last one, unless it started
on that day after its last instant that is written with milliseconds. -/
theorem started_days (types : ColumnTypes) (now : Timestamp) (d first last : Date)
    (calls : List Call) :
    ∃ on within before,
      FindsStarts types now (startedWhen .equals d.iso) calls
        (fun t ↦ t.date = d ∧ ¬t.IsPastLastMilli) on ∧
      FindsStarts types now (startedWhen .between (first.iso ++ "," ++ last.iso)) calls
        (fun t ↦ first ≤ t.date ∧ t.date ≤ last ∧ ¬(t.date = last ∧ t.IsPastLastMilli)) within ∧
      FindsStarts types now (startedWhen .lessThan d.iso) calls (fun t ↦ t.date < d) before ∧
      (¬d.IsLast → ∃ after,
        FindsStarts types now (startedWhen .greaterThan d.iso) calls (fun t ↦ d < t.date) after ∧
        ∀ call ∈ calls, ∀ t, call.times .startedAt = some t →
          (ExactlyOne (call ∈ before) (call ∈ on) (call ∈ after) ↔
            ¬(t.date = d ∧ t.IsPastLastMilli))) := by
  obtain ⟨on, found_on⟩ := findsStarts_equals types now d calls
  obtain ⟨within, found_within⟩ := findsStarts_between types now first last calls
  obtain ⟨before, found_before⟩ := findsStarts_lessThan types parseDay_iso calls
  refine ⟨on, within, before, found_on, found_within, found_before, fun notLast ↦ ?_⟩
  obtain ⟨after, found_after⟩ := findsStarts_greaterThan types parseDay_iso notLast calls
  refine ⟨after, found_after, fun call hcall t started ↦ ?_⟩
  rw [found_before.2 call hcall t started, found_on.2 call hcall t started,
    found_after.2 call hcall t started, ExactlyOne]
  obtain earlier | rfl | later := lt_trichotomy t.date d
  · simp [earlier, earlier.ne, earlier.not_gt]
  · simp
  · simp [later, later.ne', later.not_gt]

def midJanuary : Date := ⟨2024, 1, 15, by decide⟩

def lateCall : Call where
  id := 1
  agent := "a"
  createdAt := .startOf midJanuary
  texts _ := none
  times
    | .startedAt => some { Timestamp.lastMilli midJanuary with micro := ⟨999500, by decide⟩ }
    | .endedAt => none
  numbers _ := none
  payloads _ := none

theorem lateCall_of_no_day :
    (lateCall.times .startedAt).map Timestamp.date = some midJanuary ∧
      Finds [] lateCall.createdAt (startedWhen .equals midJanuary.iso) [lateCall] [] ∧
      Finds [] lateCall.createdAt (startedWhen .lessThan midJanuary.iso) [lateCall] [] ∧
      Finds [] lateCall.createdAt (startedWhen .greaterThan midJanuary.iso) [lateCall] [] := by
  refine ⟨rfl, ⟨_, rfl, ?_⟩, ⟨_, rfl, ?_⟩, ⟨_, rfl, ?_⟩⟩
  · rfl
  · rfl
  · rfl

end Compile

end CallSearch
