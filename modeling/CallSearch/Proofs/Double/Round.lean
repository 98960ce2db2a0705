import Mathlib.Tactic.Ring
import CallSearch.Double.Basic

namespace CallSearch.Double

variable {negative : Bool} {numerator denominator significand shift k : ℕ}

theorem unitsPerOne_eq : unitsPerOne = 2 ^ unitExponent := by
  unfold unitsPerOne
  -- The power is too large to be computed.
  generalize unitExponent = n
  rfl

theorem unitsPerOne_pos : 0 < unitsPerOne := by
  rw [unitsPerOne_eq]
  exact Nat.two_pow_pos unitExponent

theorem roundDiv_bounds (numerator denominator : ℕ) :
    numerator / denominator ≤ roundDiv numerator denominator ∧
      roundDiv numerator denominator ≤ numerator / denominator + 1 := by
  unfold roundDiv
  dsimp only
  split
  · omega
  · split <;> omega

def signed (negative : Bool) (magnitude : ℕ) : ℤ := if negative then -magnitude else magnitude

theorem units?_subnormal (small : significand < fractionCount) :
    (ofSignificand negative significand 0).units? = some (signed negative significand) := by
  have kept : significand % fractionCount = significand := Nat.mod_eq_of_lt small
  rw [ofSignificand, if_pos small]
  simp [units?, unitsOf, signed, kept]

theorem units?_normal (large : fractionCount ≤ significand) (small : significand < 2 * fractionCount)
    (finite : (ofSignificand negative significand shift).isFinite) :
    (ofSignificand negative significand shift).units? =
      some (signed negative (significand * 2 ^ shift)) := by
  have kept : (significand - fractionCount) % fractionCount = significand - fractionCount :=
    Nat.mod_eq_of_lt (by omega)
  have whole : fractionCount + (significand - fractionCount) = significand := by omega
  rw [ofSignificand, if_neg (by omega), if_neg (by omega)] at finite ⊢
  dsimp only at finite ⊢
  split at finite
  · next inside =>
    simp only [dif_pos inside, units?, unitsOf, Fin.ofNat, kept, whole]
    rfl
  · cases finite

theorem units?_full (finite : (ofSignificand negative (2 * fractionCount) shift).isFinite) :
    (ofSignificand negative (2 * fractionCount) shift).units? =
      some (signed negative (2 * fractionCount * 2 ^ shift)) := by
  have doubled : fractionCount * Nat.pow 2 (shift + 1) = 2 * fractionCount * 2 ^ shift := by
    rw [Nat.pow_eq, Nat.pow_succ]
    ring
  rw [ofSignificand, if_neg (by decide), if_pos rfl] at finite ⊢
  dsimp only at finite ⊢
  split at finite
  · next inside =>
    simp only [dif_pos inside, units?, unitsOf, Fin.ofNat, Nat.zero_mod, Nat.add_zero, doubled]
    rfl
  · cases finite

theorem units?_ofSignificand (small : significand ≤ 2 * fractionCount)
    (normal : shift = 0 ∨ fractionCount ≤ significand)
    (finite : (ofSignificand negative significand shift).isFinite) :
    (ofSignificand negative significand shift).units? =
      some (signed negative (significand * 2 ^ shift)) := by
  by_cases subnormal : significand < fractionCount
  · obtain rfl : shift = 0 := normal.resolve_right (by omega)
    rw [units?_subnormal subnormal, Nat.pow_zero, Nat.mul_one]
  · by_cases full : significand = 2 * fractionCount
    · subst full
      exact units?_full finite
    · exact units?_normal (by omega) (by omega) finite

/-- How far a quotient is shifted so that 53 binary digits of it are left. -/
def shiftOf (numerator denominator : ℕ) : ℕ := (numerator / denominator).log2 - 52

/-- The digits of a quotient that are left once it is shifted and rounded. -/
def significandOf (numerator denominator : ℕ) : ℕ :=
  roundDiv numerator (denominator * 2 ^ shiftOf numerator denominator)

theorem significandOf_le (numerator denominator : ℕ) :
    significandOf numerator denominator ≤ 2 * fractionCount := by
  obtain ⟨-, high⟩ := roundDiv_bounds numerator (denominator * 2 ^ shiftOf numerator denominator)
  have below : numerator / denominator < 2 ^ (53 + shiftOf numerator denominator) := by
    refine Nat.lt_log2_self.trans_le (Nat.pow_le_pow_right (by decide) ?_)
    unfold shiftOf
    omega
  have digits : numerator / denominator / 2 ^ shiftOf numerator denominator < 2 * fractionCount := by
    rw [Nat.div_lt_iff_lt_mul (Nat.two_pow_pos _)]
    exact below.trans_eq (Nat.pow_add 2 53 _)
  rw [Nat.div_div_eq_div_mul] at digits
  exact high.trans digits

theorem pow_le_significandOf (reached : 2 ^ k ≤ numerator / denominator) :
    2 ^ k ≤ significandOf numerator denominator * 2 ^ shiftOf numerator denominator := by
  obtain ⟨low, -⟩ := roundDiv_bounds numerator (denominator * 2 ^ shiftOf numerator denominator)
  rw [← Nat.div_div_eq_div_mul] at low
  have nonzero : numerator / denominator ≠ 0 := (Nat.two_pow_pos k).trans_le reached |>.ne'
  have exponent : k ≤ (numerator / denominator).log2 := (Nat.le_log2 nonzero).mpr reached
  have inside : shiftOf numerator denominator ≤ (numerator / denominator).log2 := Nat.sub_le _ _
  have digits : 2 ^ ((numerator / denominator).log2 - shiftOf numerator denominator) ≤
      numerator / denominator / 2 ^ shiftOf numerator denominator := by
    rw [Nat.le_div_iff_mul_le (Nat.two_pow_pos _), ← Nat.pow_add, Nat.sub_add_cancel inside]
    exact Nat.log2_self_le nonzero
  calc 2 ^ k ≤ 2 ^ (numerator / denominator).log2 := Nat.pow_le_pow_right (by decide) exponent
    _ = 2 ^ ((numerator / denominator).log2 - shiftOf numerator denominator) *
        2 ^ shiftOf numerator denominator := by rw [← Nat.pow_add, Nat.sub_add_cancel inside]
    _ ≤ _ := Nat.mul_le_mul_right _ (digits.trans low)

theorem significandOf_normal (numerator denominator : ℕ) :
    shiftOf numerator denominator = 0 ∨ fractionCount ≤ significandOf numerator denominator := by
  by_cases unshifted : shiftOf numerator denominator = 0
  · exact Or.inl unshifted
  · refine Or.inr ?_
    have exponent : (numerator / denominator).log2 = 52 + shiftOf numerator denominator := by
      unfold shiftOf at unshifted ⊢
      omega
    have nonzero : numerator / denominator ≠ 0 := by
      intro zero
      rw [zero, Nat.log2_zero] at exponent
      omega
    have reached := pow_le_significandOf (exponent ▸ Nat.log2_self_le nonzero)
    rw [Nat.pow_add] at reached
    exact Nat.le_of_mul_le_mul_right reached (Nat.two_pow_pos _)

theorem units?_ofUnitRatio (finite : (ofUnitRatio negative numerator denominator).isFinite) :
    (ofUnitRatio negative numerator denominator).units? =
      some (signed negative (significandOf numerator denominator *
        2 ^ shiftOf numerator denominator)) :=
  units?_ofSignificand (significandOf_le _ _) (significandOf_normal _ _) finite

theorem exists_units_ofUnitRatio (finite : (ofUnitRatio negative numerator denominator).isFinite)
    (reached : 2 ^ k ≤ numerator / denominator) :
    ∃ magnitude, 2 ^ k ≤ magnitude ∧
      (ofUnitRatio negative numerator denominator).units? = some (signed negative magnitude) :=
  ⟨_, pow_le_significandOf reached, units?_ofUnitRatio finite⟩

section Positive

variable {x y : Double} {a b n : ℕ} {rank : ℤ}

theorem finite_of_units? (h : x.units? = some (a : ℤ)) (ha : 0 < a) :
    ∃ exponent fraction, x = .finite false exponent fraction ∧
      unitsOf exponent.val fraction.val = a := by
  cases x with
  | nan | infinite => cases h
  | finite negative exponent fraction =>
    have units := Option.some.inj h
    cases negative with
    | false => exact ⟨exponent, fraction, rfl, Int.ofNat.inj units⟩
    | true =>
      simp only [if_true] at units
      omega

theorem mul_eq (hx : x.units? = some (a : ℤ)) (ha : 0 < a) (hy : y.units? = some (b : ℤ))
    (hb : 0 < b) : x.mul y = .ofUnitRatio false (a * b) unitsPerOne := by
  obtain ⟨exponent, fraction, rfl, rfl⟩ := finite_of_units? hx ha
  obtain ⟨exponent', fraction', rfl, rfl⟩ := finite_of_units? hy hb
  rfl

theorem exists_units_ofInt (hn : 0 < n) (finite : (ofInt n).isFinite) :
    ∃ units : ℕ, unitsPerOne ≤ units ∧ (ofInt n).units? = some (units : ℤ) := by
  have positive : decide ((n : ℤ) < 0) = false := by simp
  have reached : 2 ^ unitExponent ≤ n * unitsPerOne / 1 := by
    rw [Nat.div_one, ← unitsPerOne_eq]
    exact Nat.le_mul_of_pos_left _ hn
  rw [ofInt, ofRatio, Int.natAbs_natCast, positive] at finite ⊢
  obtain ⟨units, one, hunits⟩ := exists_units_ofUnitRatio finite reached
  exact ⟨units, unitsPerOne_eq.trans_le one, hunits⟩

theorem isFinite_of_mul (finite : (x.mul y).isFinite) : y.isFinite := by
  cases y with
  | finite => rfl
  | nan => cases x <;> cases finite
  | infinite =>
    cases x with
    | nan => cases finite
    | infinite => cases finite
    | finite negative exponent fraction =>
      simp only [mul] at finite
      split at finite <;> cases finite

theorem exists_units_mul (hx : x.units? = some (a : ℤ)) (ha : 0 < a) (hy : y.units? = some (b : ℤ))
    (hb : unitsPerOne ≤ b) (finite : (x.mul y).isFinite) :
    ∃ units : ℕ, 0 < units ∧ (x.mul y).units? = some (units : ℤ) := by
  have reached : 2 ^ 0 ≤ a * b / unitsPerOne := by
    rw [Nat.pow_zero, Nat.le_div_iff_mul_le unitsPerOne_pos, Nat.one_mul]
    exact hb.trans (Nat.le_mul_of_pos_left _ ha)
  rw [mul_eq hx ha hy (unitsPerOne_pos.trans_le hb)] at finite ⊢
  exact exists_units_ofUnitRatio finite reached

theorem ceil_pos (hx : x.units? = some (a : ℤ)) (ha : 0 < a) :
    ∃ rank, x.ceil? = some rank ∧ 1 ≤ rank := by
  have one : 0 < (unitsPerOne : ℤ) := Int.natCast_pos.mpr unitsPerOne_pos
  have below : -(a : ℤ) / unitsPerOne < 0 := Int.ediv_neg_of_neg_of_pos (by omega) one
  refine ⟨-(-(a : ℤ) / unitsPerOne), ?_, by omega⟩
  rw [ceil?, hx, Option.map_some]

end Positive

end CallSearch.Double
