import CallSearch.Anomaly.Signals
import CallSearch.Proofs.Anomaly.Percentile
import CallSearch.Proofs.Double.Order

namespace CallSearch

/-- The default percentile, whether it is given as a whole or a floating point number. -/
def IsDefaultPercentile (percentile : Number) : Prop :=
  percentile.toDouble = (Number.int 95).toDouble

section Rank

open Double

theorem share_ninetyFive {x : Double} {units : ℕ} (hx : (Number.int 95).toDouble = .ok x)
    (hunits : (x.divNat 100).units? = some (units : ℤ)) : 100 * units ≤ 96 * unitsPerOne := by
  have all : ((Number.int 95).toDouble.toOption.bind fun x ↦ (x.divNat 100).units?).all
      fun units ↦ 100 * units ≤ 96 * (unitsPerOne : ℤ) := by decide +kernel
  rw [hx] at all
  simp only [Except.toOption, Option.bind_some, hunits, Option.all_some, decide_eq_true_eq] at all
  exact_mod_cast all

theorem percentileRank_eq {percentile : Number} {x : Double} {n : ℕ} {units : ℤ}
    (hx : percentile.toDouble = .ok x)
    (hunits : ((x.divNat 100).mul (ofInt n)).units? = some units) :
    percentileRank percentile n = .ok (-(-units / unitsPerOne)) := by
  rw [percentileRank, hx]
  simp only [bind, Except.bind]
  generalize (x.divNat 100).mul (ofInt n) = y at hunits ⊢
  cases y with
  | nan | infinite => cases hunits
  | finite =>
    simp only [ceil?, hunits]
    rfl

theorem percentileRank_congr {percentile percentile' : Number}
    (same : percentile.toDouble = percentile'.toDouble) (n : ℕ) :
    percentileRank percentile n = percentileRank percentile' n := by
  rw [percentileRank, percentileRank, same]

theorem rounded_share_le {share count : ℕ} (part : 100 * share ≤ 96 * unitsPerOne)
    (large : unitsPerOne ≤ count) : 100 * rounded (share * count) unitsPerOne ≤ 97 * count := by
  have unrounded : 100 * (share * count / unitsPerOne) ≤ 96 * count := by
    refine Nat.le_of_mul_le_mul_right ?_ unitsPerOne_pos
    calc 100 * (share * count / unitsPerOne) * unitsPerOne
      _ = 100 * (share * count / unitsPerOne * unitsPerOne) := Nat.mul_assoc _ _ _
      _ ≤ 100 * (share * count) := Nat.mul_le_mul_left _ (Nat.div_mul_le_self _ _)
      _ = 100 * share * count := (Nat.mul_assoc _ _ _).symm
      _ ≤ 96 * unitsPerOne * count := Nat.mul_le_mul_right _ part
      _ = 96 * count * unitsPerOne := Nat.mul_right_comm _ _ _
  have rounding := rounded_le (share * count) unitsPerOne
  have least := le_unitsPerOne
  omega

theorem ceil_le {units n : ℕ} (h : units ≤ n * unitsPerOne) :
    -(-(units : ℤ) / unitsPerOne) ≤ n := by
  have positive : (0 : ℤ) < unitsPerOne := Int.natCast_pos.mpr unitsPerOne_pos
  have below : -(n : ℤ) ≤ -(units : ℤ) / unitsPerOne := by
    rw [Int.le_ediv_iff_mul_le positive, Int.neg_mul]
    exact Int.neg_le_neg (by exact_mod_cast h)
  omega

/-- The rank of the default percentile is one of the ranks that there are. -/
theorem percentileRank_ninetyFive {n : ℕ} (positive : 0 < n) (fits : (ofInt n).isFinite) :
    ∃ rank : ℤ, percentileRank (.int 95) n = .ok rank ∧ 1 ≤ rank ∧ rank ≤ n := by
  obtain ⟨x, share, hx, hshare, some_share⟩ := exists_share asksShare_ninetyFive
  obtain ⟨count, one, hcount⟩ := exists_units_ofInt positive fits
  have count_eq : count = rounded (n * unitsPerOne) 1 := by
    exact_mod_cast Option.some.inj (hcount.symm.trans (units?_ofInt_natCast fits))
  have product := rounded_share_le (share_ninetyFive hx hshare) one
  have finite : (ofUnitRatio false (share * count) unitsPerOne).isFinite := by
    rw [isFinite_ofUnitRatio]
    rw [isFinite_ofInt_natCast, ← count_eq] at fits
    omega
  -- The number of values may be rounded up, but the share leaves room for that.
  have inside : rounded (share * count) unitsPerOne ≤ n * unitsPerOne := by
    have high := rounded_le (n * unitsPerOne) 1
    have least := le_unitsPerOne
    have size : unitsPerOne ≤ n * unitsPerOne := Nat.le_mul_of_pos_left _ positive
    rw [Nat.div_one, ← count_eq] at high
    omega
  have units : ((x.divNat 100).mul (ofInt n)).units? =
      some (rounded (share * count) unitsPerOne : ℤ) := by
    rw [mul_eq hshare some_share hcount (unitsPerOne_pos.trans_le one)]
    exact units?_ofUnitRatio finite
  have rank := percentileRank_eq hx units
  exact ⟨_, rank, percentileRank_pos asksShare_ninetyFive positive rank, ceil_le inside⟩

variable {percentile : Number} {values : List Double}

theorem nearestRank_ninetyFive (asDefault : IsDefaultPercentile percentile)
    (fits : (ofInt values.length).isFinite) :
    ∃ chosen, nearestRank (values.map .real) percentile = .ok chosen := by
  have small : (values.map Number.real).any Number.isTooLarge = false := by
    simp [Number.isTooLarge, Number.toDouble]
  have shorter : (sortedNumbers (values.map .real)).length ≤ values.length := by
    rw [sortedNumbers, List.length_mergeSort]
    exact (List.length_filter_le _ _).trans_eq (List.length_map _)
  rw [nearestRank, small]
  generalize sortedNumbers (values.map .real) = sorted at shorter ⊢
  cases sorted with
  | nil => exact ⟨none, rfl⟩
  | cons first rest =>
    obtain ⟨rank, hrank, one, inside⟩ :=
      percentileRank_ninetyFive (Nat.succ_pos rest.length) (isFinite_ofInt_mono shorter fits)
    have bound : (rank - 1).toNat < (first :: rest).length := by
      rw [List.length_cons]
      omega
    refine ⟨some (first :: rest)[(rank - 1).toNat], ?_⟩
    simp only [Bool.false_eq_true, if_false, List.isEmpty_cons, List.length_cons,
      percentileRank_congr asDefault, hrank]
    rw [atRank, List.getElem?_eq_getElem bound]

theorem Thresholds.ofValues_ninetyFive (asDefault : IsDefaultPercentile percentile)
    (fits : (ofInt values.length).isFinite) (minimum : ℤ) :
    ∃ chosen, ofValues minimum percentile values = .ok chosen := by
  rw [ofValues]
  split_ifs
  · exact ⟨none, rfl⟩
  · obtain ⟨chosen, found⟩ := nearestRank_ninetyFive asDefault fits
    rw [found]
    exact ⟨_, rfl⟩

end Rank

/-- Whether a value is a whole number beyond all floating point numbers. -/
def Json.Oversized (value : Json) : Prop := ∃ n, value = .int n ∧ Double.tooLargeFrom ≤ n.natAbs

theorem Number.fails_toDouble (n : ℤ) :
    FailsIf .tooLarge (Number.int n).toDouble (Double.tooLargeFrom ≤ n.natAbs) := by
  have some_iff := Double.ofInt?_isSome_iff (n := n)
  rw [Number.toDouble]
  cases converted : Double.ofInt? n with
  | none =>
    rw [converted] at some_iff
    exact .of_error (not_lt.mp (mt some_iff.mpr (by simp)))
  | some x =>
    rw [converted] at some_iff
    exact .of_ok x (not_le.mpr (some_iff.mp rfl))

theorem Json.fails_toDouble? (value : Json) :
    FailsIf .tooLarge value.toDouble? value.Oversized := by
  cases value with
  | int n => exact ((Number.fails_toDouble n).map some).congr (by simp [Oversized])
  | null | bool | real | str | arr | obj => exact .of_ok _ (by simp [Oversized])

/-- All whole numbers in a document are small enough to be floating point numbers. -/
inductive Json.FitsFloat : Json → Prop
  | null : FitsFloat .null
  | bool (b : Bool) : FitsFloat (.bool b)
  | int {n : ℤ} (fits : (Double.ofInt? n).isSome) : FitsFloat (.int n)
  | real (x : Double) : FitsFloat (.real x)
  | str (s : String) : FitsFloat (.str s)
  | arr {items : List Json} (fits : ∀ item ∈ items, FitsFloat item) : FitsFloat (.arr items)
  | obj {members : List (String × Json)} (fits : ∀ member ∈ members, FitsFloat member.2) :
    FitsFloat (.obj members)

namespace Json.FitsFloat

variable {document value : Json} {name path : String}

theorem member? (fits : document.FitsFloat) (found : document.member? name = some value) :
    value.FitsFloat := by
  cases fits with
  | obj fits =>
    obtain ⟨before, after, rfl, -⟩ := List.lookup_eq_some_iff.mp found
    exact fits (name, value) (by simp)
  | null | bool | int | real | str | arr => cases found

theorem walk? (fits : document.FitsFloat) {names : List String}
    (found : document.walk? names = some value) : value.FitsFloat := by
  induction names generalizing document with
  | nil =>
    cases found
    exact fits
  | cons name rest ih =>
    obtain ⟨next, hnext, found⟩ := Option.bind_eq_some_iff.mp found
    exact ih (fits.member? hnext) found

theorem getD {found : Option Json} (fits : ∀ value, found = some value → value.FitsFloat) :
    (found.getD .null).FitsFloat := by
  cases found with
  | none => exact .null
  | some value => exact fits value rfl

theorem memberD (fits : document.FitsFloat) (name : String) :
    ((document.member? name).getD .null).FitsFloat :=
  getD fun _ ↦ fits.member?

theorem lookup (fits : document.FitsFloat) (path : String) : (document.lookup path).FitsFloat :=
  getD fun _ ↦ fits.walk?

theorem not_oversized (fits : value.FitsFloat) : ¬value.Oversized := by
  rintro ⟨n, rfl, large⟩
  cases fits with
  | int fits => exact (Double.ofInt?_isSome_iff.mp fits).not_ge large

end Json.FitsFloat

namespace Signal

def costParts : List String := ["total_llm_cost", "total_tts_cost", "total_stt_cost"]

/-- Whether a row has an oversized number where a signal is measured. The parts of the cost count
only if nothing was charged. -/
def Overflows (row : Json) : Signal → Prop
  | .duration => ((row.member? "duration_seconds").getD .null).Oversized
  | .cost =>
    let charge := ((row.member? "metadata").getD .null).lookup "customer_charge"
    charge.Oversized ∨ charge.toDouble? = .ok none ∧
      ∃ part ∈ costParts, ((row.member? part).getD .null).Oversized
  | .latency => ((row.member? "avg_latency").getD .null).Oversized

variable {rows : List Json}

theorem fails_columnValue (column : String) (row : Json) :
    FailsIf .tooLarge (columnValue column row) ((row.member? column).getD .null).Oversized := by
  rw [columnValue]
  cases row.member? column with
  | none => exact .of_ok _ (by simp [Json.Oversized])
  | some value =>
    cases value with
    | int n => exact ((Number.fails_toDouble n).map some).congr (by simp [Json.Oversized])
    | null | bool | real | str | arr | obj => exact .of_ok _ (by simp [Json.Oversized])

theorem fails_partsCost (row : Json) :
    FailsIf .tooLarge (partsCost row)
      (∃ part ∈ costParts, ((row.member? part).getD .null).Oversized) := by
  refine FailsIf.foldlM (fun total part ↦ ?_) _
  exact ((Json.fails_toDouble? _).bind fun _ _ ↦ .of_ok _ not_false).congr (by rw [or_false])

theorem fails_callCost (row : Json) : FailsIf .tooLarge (callCost row) (Overflows row .cost) := by
  refine (Json.fails_toDouble? _).bind fun charge read ↦ ?_
  cases charge with
  | some x => exact .of_ok _ (by simp [read])
  | none =>
    have parts := (fails_partsCost row).bind fun total _ ↦
      FailsIf.of_ok (if (Number.int 0).lt (.real total) then some total else none) not_false
    exact parts.congr (by simp [read])

theorem fails_value (signal : Signal) (row : Json) :
    FailsIf .tooLarge (signal.value row) (Overflows row signal) := by
  cases signal with
  | duration | latency => exact fails_columnValue _ row
  | cost => exact fails_callCost row

theorem fails_values (signal : Signal) (rows : List Json) :
    FailsIf .tooLarge (signal.values rows) (∃ row ∈ rows, Overflows row signal) :=
  (FailsIf.mapM (fails_value signal)).map _

theorem length_values {signal : Signal} {values : List Double}
    (read : signal.values rows = .ok values) : values.length ≤ rows.length := by
  obtain ⟨found, each, rfl⟩ := ok_map_iff.mp read
  rw [(forall₂_of_mapM each).length_eq]
  exact List.length_filterMap_le id found

end Signal

def RowsOverflow (rows : List Json) : Prop := ∃ row ∈ rows, ∃ signal, Signal.Overflows row signal

theorem rowsOverflow_iff {rows : List Json} :
    RowsOverflow rows ↔ (∃ row ∈ rows, Signal.Overflows row .duration) ∨
      (∃ row ∈ rows, Signal.Overflows row .cost) ∨ ∃ row ∈ rows, Signal.Overflows row .latency := by
  constructor
  · rintro ⟨row, inside, signal, overflows⟩
    cases signal with
    | duration => exact .inl ⟨row, inside, overflows⟩
    | cost => exact .inr (.inl ⟨row, inside, overflows⟩)
    | latency => exact .inr (.inr ⟨row, inside, overflows⟩)
  · rintro (⟨row, inside, overflows⟩ | ⟨row, inside, overflows⟩ | ⟨row, inside, overflows⟩)
    · exact ⟨row, inside, _, overflows⟩
    · exact ⟨row, inside, _, overflows⟩
    · exact ⟨row, inside, _, overflows⟩

/-- The number of items that no list reaches. -/
def maxLength : ℕ := 2 ^ 63

theorem isSome_ofInt?_length {n : ℕ} (few : n < maxLength) : (Double.ofInt? n).isSome := by
  rw [Double.ofInt?_isSome_iff, Int.natAbs_natCast]
  exact few.trans_le Double.le_tooLargeFrom

/-- The whole numbers in some rows, and the number of rows, are small enough to be floating point
numbers. -/
structure FitRows (rows : List Json) : Prop where
  numbers : ∀ row ∈ rows, row.FitsFloat
  count : (Double.ofInt? rows.length).isSome

theorem FitRows.not_overflow {rows : List Json} (fits : FitRows rows) : ¬RowsOverflow rows := by
  rintro ⟨row, inside, signal, overflows⟩
  have row_fits := fits.numbers row inside
  cases signal with
  | duration | latency => exact (row_fits.memberD _).not_oversized overflows
  | cost =>
    rcases overflows with charged | ⟨-, part, -, oversized⟩
    · exact ((row_fits.memberD _).lookup _).not_oversized charged
    · exact (row_fits.memberD part).not_oversized oversized

theorem Thresholds.fails_compute {percentile : Number} {rows : List Json}
    (asDefault : IsDefaultPercentile percentile) (few : (Double.ofInt rows.length).isFinite)
    (minimum : ℤ) :
    FailsIf (.number .tooLarge) (compute minimum percentile rows) (RowsOverflow rows) := by
  have chosen {signal : Signal} {values : List Double}
      (read : (signal.values rows).mapError PercentileError.number = .ok values) :
      ∃ x, ofValues minimum percentile values = .ok x :=
    ofValues_ninetyFive asDefault
      (Double.isFinite_ofInt_mono (Signal.length_values (ok_of_mapError read)) few) minimum
  have values (signal : Signal) := (signal.fails_values rows).mapError PercentileError.number
  refine FailsIf.congr ?_ rowsOverflow_iff.symm
  refine (values .duration).bind fun durations hdurations ↦ ?_
  refine (values .cost).bind fun costs hcosts ↦ ?_
  refine ((values .latency).bind fun latencies hlatencies ↦ ?_).congr (by rw [or_false])
  obtain ⟨duration, hduration⟩ := chosen hdurations
  obtain ⟨cost, hcost⟩ := chosen hcosts
  obtain ⟨latency, hlatency⟩ := chosen hlatencies
  rw [hduration, hcost, hlatency]
  exact .of_ok _ not_false

theorem Thresholds.compute_total {percentile : Number} {rows : List Json}
    (asDefault : IsDefaultPercentile percentile) (fits : FitRows rows) (minimum : ℤ) :
    ∃ thresholds, compute minimum percentile rows = .ok thresholds :=
  (fails_compute asDefault (Double.isFinite_ofInt_iff.mpr fits.count) minimum).2 fits.not_overflow

end CallSearch
