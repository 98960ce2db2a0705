import Mathlib.Data.List.Basic
import CallSearch.Anomaly.Percentile
import CallSearch.Proofs.Double.Round
import CallSearch.Proofs.Number
import CallSearch.Proofs.Outcome

namespace CallSearch

section Ascending

variable {α β : Type} [LinearOrder β] {key : α → β} {items : List α} {i : ℕ} {a : α}

theorem split_ascending (ascending : items.Pairwise fun a b ↦ key a ≤ key b)
    (found : items[i]? = some a) :
    items = items.take i ++ a :: items.drop (i + 1) ∧ (∀ b ∈ items.take i, key b ≤ key a) ∧
      ∀ b ∈ items.drop (i + 1), key a ≤ key b := by
  obtain ⟨inside, rfl⟩ := List.getElem?_eq_some_iff.mp found
  have parts : items = items.take i ++ items[i] :: items.drop (i + 1) := by
    rw [← List.drop_eq_getElem_cons inside, List.take_append_drop]
  rw [parts, List.pairwise_append, List.pairwise_cons] at ascending
  obtain ⟨-, ⟨behind, -⟩, across⟩ := ascending
  exact ⟨parts, fun b hb ↦ across b hb _ List.mem_cons_self, behind⟩

theorem length_sub_le_countP (ascending : items.Pairwise fun a b ↦ key a ≤ key b)
    (found : items[i]? = some a) :
    items.length - i ≤ items.countP fun b ↦ key a ≤ key b := by
  obtain ⟨parts, -, behind⟩ := split_ascending ascending found
  have all : (items.drop (i + 1)).countP (fun b ↦ key a ≤ key b) = (items.drop (i + 1)).length := by
    rw [List.countP_eq_length]
    exact fun b hb ↦ decide_eq_true (behind b hb)
  rw [List.length_drop] at all
  rw [parts, List.countP_append, List.countP_cons_of_pos (by simp), all, ← parts]
  omega

theorem countP_le_length_sub (ascending : items.Pairwise fun a b ↦ key a ≤ key b)
    (found : items[i]? = some a) :
    (items.countP fun b ↦ key a < key b) ≤ items.length - (i + 1) := by
  obtain ⟨parts, before, -⟩ := split_ascending ascending found
  have none : (items.take i).countP (fun b ↦ key a < key b) = 0 := by
    rw [List.countP_eq_zero]
    intro b hb above
    exact (before b hb).not_gt (of_decide_eq_true above)
  have some := List.countP_le_length (p := fun b ↦ decide (key a < key b)) (l := items.drop (i + 1))
  rw [List.length_drop] at some
  rw [parts, List.countP_append, List.countP_cons_of_neg (by simp), none, ← parts]
  omega

end Ascending

namespace Number

variable {m n : Number}

def placed (n : Number) : Place := n.place?.getD .bottom

theorem lt_iff_placed (hm : m.isNan = false) (hn : n.isNan = false) :
    m.lt n ↔ m.placed < n.placed := by
  obtain ⟨p, hp⟩ := exists_place hm
  obtain ⟨q, hq⟩ := exists_place hn
  rw [lt_iff hp hq, placed, placed, hp, hq, Option.getD_some, Option.getD_some]

theorem le_iff_placed (hm : m.isNan = false) (hn : n.isNan = false) :
    m.le n ↔ m.placed ≤ n.placed := by
  obtain ⟨p, hp⟩ := exists_place hm
  obtain ⟨q, hq⟩ := exists_place hn
  have hsame : m.same n ↔ p = q := by simp [same, hp, hq]
  rw [le, Bool.or_eq_true, lt_iff hp hq, hsame, placed, placed, hp, hq, Option.getD_some,
    Option.getD_some]
  exact le_iff_lt_or_eq.symm

end Number

section Sorted

variable {values : List Number} {percentile v : Number}

theorem sortedNumbers_perm (numbers : ∀ n ∈ values, n.isNan = false) :
    (sortedNumbers values).Perm values := by
  have all : values.filter (!·.isNan) = values := by
    rw [List.filter_eq_self]
    exact fun n hn ↦ by simp [numbers n hn]
  rw [sortedNumbers, all]
  exact List.mergeSort_perm _ _

theorem sortedNumbers_ascending (values : List Number) :
    (sortedNumbers values).Pairwise fun m n ↦ m.placed ≤ n.placed := by
  have places : (sortedNumbers values).map Number.placed =
      ((values.filter (!·.isNan)).map Number.placed).mergeSort fun p q ↦ decide (p ≤ q) := by
    refine List.map_mergeSort fun m hm n hn ↦ ?_
    rw [List.mem_filter, Bool.not_eq_true'] at hm hn
    rw [Bool.eq_iff_iff, Number.le_iff_placed hm.2 hn.2, decide_eq_true_iff]
  have ascending (items : List Place) :
      (items.mergeSort fun p q ↦ decide (p ≤ q)).Pairwise (· ≤ ·) := by
    refine (List.pairwise_mergeSort ?_ ?_ items).imp of_decide_eq_true
    · intro p q r hpq hqr
      rw [decide_eq_true_iff] at hpq hqr ⊢
      exact hpq.trans hqr
    · intro p q
      rw [Bool.or_eq_true, decide_eq_true_iff, decide_eq_true_iff]
      exact le_total p q
  rw [← List.pairwise_map, places]
  exact ascending _

theorem nearestRank_ok (h : nearestRank values percentile = .ok (some v)) :
    ∃ rank, percentileRank percentile (sortedNumbers values).length = .ok rank ∧
      (sortedNumbers values)[(rank - 1).toNat]? = some v := by
  unfold nearestRank at h
  dsimp only at h
  split at h
  · cases h
  · split at h
    · cases h
    · split at h
      · cases h
      · next rank hrank =>
        refine ⟨rank, hrank, ?_⟩
        unfold atRank at h
        split at h
        · next found =>
          cases h
          exact found
        · cases h

end Sorted

section Rank

open Double

variable {values : List Number} {percentile v : Number} {size : ℕ} {rank : ℤ}

/-- Whether a percentile asks for a share of the values that is more than nothing. -/
def asksShare (percentile : Number) : Bool :=
  (percentile.toDouble.toOption.bind fun x ↦ (x.divNat 100).units?).any (0 < ·)

theorem asksShare_ninetyFive : asksShare (.int 95) := by decide +kernel

theorem exists_share (asks : asksShare percentile) :
    ∃ x, ∃ units : ℕ, percentile.toDouble = .ok x ∧ (x.divNat 100).units? = some (units : ℤ) ∧
      0 < units := by
  unfold asksShare at asks
  cases hx : percentile.toDouble with
  | error e =>
    rw [hx] at asks
    cases asks
  | ok x =>
    rw [hx] at asks
    obtain ⟨units, hunits, positive⟩ := (Option.any_eq_true _ _).mp asks
    rw [decide_eq_true_iff] at positive
    obtain ⟨count, rfl⟩ := Int.eq_ofNat_of_zero_le positive.le
    exact ⟨x, count, rfl, hunits, Int.natCast_pos.mp positive⟩

theorem percentileRank_ok (h : percentileRank percentile size = .ok rank) :
    ∃ x, percentile.toDouble = .ok x ∧ ((x.divNat 100).mul (ofInt size)).isFinite ∧
      ((x.divNat 100).mul (ofInt size)).ceil?.getD 0 = rank := by
  obtain ⟨x, hx, h⟩ := ok_of_bind h
  refine ⟨x, hx, ?_⟩
  dsimp only at h
  generalize (x.divNat 100).mul (ofInt size) = y at h
  cases y with
  | nan | infinite => cases h
  | finite => exact ⟨rfl, Except.ok.inj h⟩

theorem percentileRank_pos (asks : asksShare percentile) (hsize : 0 < size)
    (h : percentileRank percentile size = .ok rank) : 1 ≤ rank := by
  obtain ⟨x, share, hx, hshare, positive⟩ := exists_share asks
  obtain ⟨x', hx', finite, hrank⟩ := percentileRank_ok h
  cases hx.symm.trans hx'
  obtain ⟨units, one, hunits⟩ := exists_units_ofInt hsize (isFinite_of_mul finite)
  obtain ⟨count, some, hcount⟩ := exists_units_mul hshare positive hunits one finite
  obtain ⟨ceiling, hceiling, hpos⟩ := ceil_pos hcount some
  rw [hceiling, Option.getD_some] at hrank
  exact hrank ▸ hpos

/-- The value at a percentile has a rank among the values. From the rank on all values in ascending
order reach it, and only those behind the rank can lie above it. -/
theorem nearestRank_tail (numbers : ∀ n ∈ values, n.isNan = false) (asks : asksShare percentile)
    (h : nearestRank values percentile = .ok (some v)) :
    ∃ k : ℕ, percentileRank percentile values.length = .ok (k : ℤ) ∧ 1 ≤ k ∧ k ≤ values.length ∧
      values.length - k + 1 ≤ values.countP (v.le ·) ∧
      values.countP (v.lt ·) ≤ values.length - k := by
  obtain ⟨rank, hrank, found⟩ := nearestRank_ok h
  have perm := sortedNumbers_perm numbers
  have ascending := sortedNumbers_ascending values
  have inside := (List.getElem?_eq_some_iff.mp found).1
  have reached := length_sub_le_countP ascending found
  have above := countP_le_length_sub ascending found
  rw [perm.length_eq] at hrank inside reached above
  have one := percentileRank_pos asks (by omega) hrank
  have hv : v.isNan = false := numbers v (perm.subset (List.mem_of_getElem? found))
  have le_eq : values.countP (v.le ·) = values.countP fun n ↦ v.placed ≤ n.placed := by
    refine List.countP_congr fun n hn ↦ ?_
    rw [Number.le_iff_placed hv (numbers n hn), decide_eq_true_iff]
  have lt_eq : values.countP (v.lt ·) = values.countP fun n ↦ v.placed < n.placed := by
    refine List.countP_congr fun n hn ↦ ?_
    rw [Number.lt_iff_placed hv (numbers n hn), decide_eq_true_iff]
  rw [perm.countP_eq, ← le_eq] at reached
  rw [perm.countP_eq, ← lt_eq] at above
  refine ⟨rank.toNat, ?_, by omega, by omega, by omega, by omega⟩
  rw [Int.toNat_of_nonneg (by omega)]
  exact hrank

end Rank

end CallSearch
