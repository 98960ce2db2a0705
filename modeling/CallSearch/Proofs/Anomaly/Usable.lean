import CallSearch.Proofs.Anomaly.Charge
import CallSearch.Proofs.Anomaly.Rank

namespace CallSearch

section Values

variable {values : List Double} {percentile : Number}

theorem filterMap_reals (values : List Double) :
    (values.map (some ∘ Number.real)).filterMap id = values.map .real := by
  rw [List.filterMap_map, Function.id_comp, List.filterMap_eq_map]

theorem nearestRankPresent_reals (values : List Double) (percentile : Number) :
    nearestRankPresent (values.map (some ∘ Number.real)) percentile =
      nearestRank (values.map .real) percentile := by
  rw [nearestRankPresent, filterMap_reals]

theorem allFit_reals (values : List Double) : AllFit (values.map (some ∘ Number.real)) := by
  intro n hn
  obtain ⟨x, -, same⟩ := List.mem_map.mp hn
  cases same
  rfl

theorem usable_reals (values : List Double) :
    usable (values.map (some ∘ Number.real)) = (values.filter (!·.isNan)).map .real := by
  rw [usable, filterMap_reals, List.filter_map]
  rfl

theorem nearestRank_usable (asDefault : IsDefaultPercentile percentile)
    (fits : (Double.ofInt values.length).isFinite) :
    (values.filter (!·.isNan) = [] ∧ nearestRank (values.map .real) percentile = .ok none) ∨
      ∃ x ∈ values, x.isNan = false ∧
        nearestRank (values.map .real) percentile = .ok (some (.real x)) := by
  have allFit := allFit_reals values
  rw [← nearestRankPresent_reals]
  by_cases empty : values.filter (!·.isNan) = []
  · refine .inl ⟨empty, nearestRankPresent_empty allFit ?_⟩
    rw [usable_reals, empty, List.map_nil]
  · have fewer := List.length_filter_le (fun x : Double ↦ !x.isNan) values
    have count : (usable (values.map (some ∘ Number.real))).length =
        (values.filter (!·.isNan)).length := by
      rw [usable_reals, List.length_map]
    have positive := List.length_pos_iff.mpr empty
    obtain ⟨rank, ranked, one, inside⟩ :=
      percentileRank_ninetyFive positive (Double.isFinite_ofInt_mono fewer fits)
    rw [← percentileRank_congr asDefault, ← count] at ranked
    obtain ⟨r, chosen, has⟩ := nearestRankPresent_ranked allFit ranked (by omega)
    have among := has.among
    rw [usable_reals] at among
    obtain ⟨x, hx, rfl⟩ := List.mem_map.mp among
    obtain ⟨inside, number⟩ := List.mem_filter.mp hx
    exact .inr ⟨x, inside, by simpa using number, chosen⟩

theorem Thresholds.ofValues_usable (asDefault : IsDefaultPercentile percentile)
    (fits : (Double.ofInt values.length).isFinite) (minimum : ℤ) :
    ∃ chosen, ofValues minimum percentile values = .ok chosen ∧
      (chosen.isSome ↔ minimum ≤ values.length ∧ ∃ x ∈ values, x.isNan = false) ∧
      ∀ v, chosen = some v → v ∈ values ∧ v.isNan = false := by
  rw [ofValues]
  by_cases few : (values.length : ℤ) < minimum
  · rw [if_pos few]
    refine ⟨none, rfl, ?_, fun v same ↦ by cases same⟩
    exact iff_of_false Bool.false_ne_true fun enough ↦ not_le.mpr few enough.1
  · rw [if_neg few]
    rcases nearestRank_usable asDefault fits with ⟨empty, chosen⟩ | ⟨x, inside, number, chosen⟩
    · rw [chosen]
      refine ⟨none, rfl, ?_, fun v same ↦ by cases same⟩
      refine iff_of_false Bool.false_ne_true ?_
      rintro ⟨-, x, inside, number⟩
      have kept : x ∈ values.filter (!·.isNan) := List.mem_filter.mpr ⟨inside, by simp [number]⟩
      rw [empty] at kept
      cases kept
    · rw [chosen]
      refine ⟨some x, rfl, iff_of_true rfl ⟨not_lt.mp few, x, inside, number⟩, ?_⟩
      rintro v ⟨⟩
      exact ⟨inside, number⟩

end Values

theorem Thresholds.signal_usable {percentile : Number} {rows : List Json} {minimum : ℤ}
    {thresholds : Thresholds} (asDefault : IsDefaultPercentile percentile) (fits : FitRows rows)
    (computed : compute minimum percentile rows = .ok thresholds) (signal : Signal) :
    ∃ values, signal.values rows = .ok values ∧
      ((thresholds.get? signal).isSome ↔
        minimum ≤ values.length ∧ ∃ x ∈ values, x.isNan = false) ∧
      ∀ v, thresholds.get? signal = some v → v ∈ values ∧ v.isNan = false := by
  obtain ⟨values, read, chosen, -⟩ := compute_ok computed signal
  have count : (Double.ofInt values.length).isFinite :=
    Double.isFinite_ofInt_mono (Signal.length_values read) (Double.isFinite_ofInt_iff.mpr fits.count)
  obtain ⟨found, same, usable⟩ := ofValues_usable asDefault count minimum
  cases chosen.symm.trans same
  exact ⟨values, read, usable⟩

/-- The thresholds of the default percentile, for rows whose numbers fit. A threshold is given if and
only if at least the minimum of values was taken for the signal and one of them is a number, and it
is one of those that are. So it is given whenever the minimum of them are numbers, and only then if
all of them are. -/
theorem Thresholds.compute_usable {percentile : Number} {rows : List Json}
    (asDefault : IsDefaultPercentile percentile) (fits : FitRows rows) {minimum : ℤ}
    (one : 1 ≤ minimum) :
    ∃ thresholds, compute minimum percentile rows = .ok thresholds ∧
      ∀ signal : Signal, ∃ values, signal.values rows = .ok values ∧
        ((thresholds.get? signal).isSome ↔
          minimum ≤ values.length ∧ ∃ x ∈ values, x.isNan = false) ∧
        (∀ v, thresholds.get? signal = some v → v ∈ values ∧ v.isNan = false) ∧
        (minimum ≤ values.countP (!·.isNan) → (thresholds.get? signal).isSome) ∧
        ((∀ x ∈ values, x.isNan = false) →
          ((thresholds.get? signal).isSome ↔ minimum ≤ values.countP (!·.isNan))) := by
  obtain ⟨thresholds, computed⟩ := compute_total asDefault fits minimum
  refine ⟨thresholds, computed, fun signal ↦ ?_⟩
  obtain ⟨values, read, isSome_iff, usable⟩ := signal_usable asDefault fits computed signal
  refine ⟨values, read, isSome_iff, usable, ?_, ?_⟩
  · intro enough
    have fewer := values.countP_le_length (p := fun x : Double ↦ !x.isNan)
    obtain ⟨x, inside, number⟩ := List.countP_pos_iff.mp
      (by omega : 0 < values.countP fun x : Double ↦ !x.isNan)
    exact isSome_iff.mpr ⟨by omega, x, inside, by simpa using number⟩
  · intro numbers
    have all : values.countP (!·.isNan) = values.length := by
      rw [List.countP_eq_length]
      exact fun x inside ↦ by simp [numbers x inside]
    rw [isSome_iff, all, and_iff_left_iff_imp]
    intro enough
    obtain ⟨x, inside⟩ := List.exists_mem_of_length_pos (by omega : 0 < values.length)
    exact ⟨x, inside, numbers x inside⟩

def rowOfCharge (charge : Json) : Json := .obj [("metadata", .obj [("customer_charge", charge)])]

def halfUsableRows : List Json := [rowOfCharge (.str "nan"), rowOfCharge (.real five)]

theorem fitRows_halfUsable : FitRows halfUsableRows where
  numbers := by
    have row {charge : Json} (fits : charge.FitsFloat) : (rowOfCharge charge).FitsFloat := by
      refine .obj fun member among ↦ ?_
      rw [List.mem_singleton.mp among]
      refine .obj fun member among ↦ ?_
      rw [List.mem_singleton.mp among]
      exact fits
    simp only [halfUsableRows, List.forall_mem_cons, List.not_mem_nil, false_implies, implies_true,
      and_true]
    exact ⟨row (.str "nan"), row (.real five)⟩
  count := isSome_ofInt?_length (by decide)

theorem values_halfUsable : Signal.cost.values halfUsableRows = .ok [.nan, five] :=
  rfl

theorem Thresholds.compute_usable_half :
    ∃ thresholds, compute 1 (.int 95) halfUsableRows = .ok thresholds ∧
      thresholds.cost = some five := by
  obtain ⟨thresholds, computed, law⟩ := compute_usable (rfl : IsDefaultPercentile (.int 95))
    fitRows_halfUsable (by decide : (1 : ℤ) ≤ 1)
  obtain ⟨values, read, -, usable, enough, -⟩ := law .cost
  cases read.symm.trans values_halfUsable
  obtain ⟨v, found⟩ := Option.isSome_iff_exists.mp (enough le_rfl)
  obtain ⟨among, number⟩ := usable v found
  refine ⟨thresholds, computed, ?_⟩
  rcases List.mem_pair.mp among with same | same
  · rw [same] at number
    cases number
  · rw [← same]
    exact found

/-- A threshold from one number where two are the minimum: what is not a number was counted. -/
theorem Thresholds.half_counted_as_two :
    ∃ thresholds, compute 2 (.int 95) halfUsableRows = .ok thresholds ∧
      (thresholds.get? .cost).isSome ∧
      ∃ values, Signal.cost.values halfUsableRows = .ok values ∧
        values.countP (!·.isNan) = 1 := by
  have asDefault : IsDefaultPercentile (.int 95) := rfl
  obtain ⟨thresholds, computed⟩ := compute_total asDefault fitRows_halfUsable 2
  obtain ⟨values, read, isSome_iff, -⟩ :=
    signal_usable asDefault fitRows_halfUsable computed .cost
  cases read.symm.trans values_halfUsable
  exact ⟨thresholds, computed, isSome_iff.mpr ⟨by decide, five, by simp, rfl⟩, _,
    values_halfUsable, rfl⟩

end CallSearch
