import Mathlib.Algebra.Order.Field.Power
import Mathlib.Tactic.NormNum
import Mathlib.Tactic.Ring
import Mathlib.Tactic.Positivity
import CallSearch.Double.Decimal

namespace CallSearch

namespace Decimal

variable {numerator denominator : ℕ} {k : ℤ}

def value (d : Decimal) : ℚ := d.digits * 10 ^ (d.leading + 1 - d.width)

/-- Whether a decimal has as many digits as its width says, with one that is not zero in front. -/
structure IsFull (d : Decimal) : Prop where
  wide : 0 < d.width
  low : 10 ^ (d.width - 1) ≤ d.digits
  high : d.digits < 10 ^ d.width

section Scaled

theorem scaled_pos (positive : 0 < denominator) (numerator : ℕ) (place : ℤ) :
    0 < (scaled numerator denominator place).2 := by
  unfold scaled
  split_ifs
  · exact Nat.mul_pos positive (Nat.pow_pos (by decide))
  · exact positive

theorem scaled_eq (numerator denominator : ℕ) (place : ℤ) :
    ((scaled numerator denominator place).1 : ℚ) / (scaled numerator denominator place).2 =
      numerator / denominator / 10 ^ place := by
  unfold scaled
  split_ifs with nonneg
  · obtain ⟨n, rfl⟩ := Int.eq_ofNat_of_zero_le nonneg
    simp [div_div]
  · obtain ⟨n, rfl⟩ := Int.exists_eq_neg_ofNat (le_of_not_ge nonneg)
    simp [zpow_neg, div_eq_mul_inv]
    ring

theorem scaled_lt_iff (positive : 0 < denominator) {numerator : ℕ} {place : ℤ} {c : ℕ} :
    (scaled numerator denominator place).1 < c * (scaled numerator denominator place).2 ↔
      (numerator : ℚ) < denominator * (c * 10 ^ place) := by
  have some : (0 : ℚ) < (scaled numerator denominator place).2 := by
    exact_mod_cast scaled_pos positive numerator place
  have some' : (0 : ℚ) < denominator := by exact_mod_cast positive
  have power : (0 : ℚ) < 10 ^ place := by positivity
  have quotient := scaled_eq numerator denominator place
  have cast : (scaled numerator denominator place).1 < c * (scaled numerator denominator place).2 ↔
      ((scaled numerator denominator place).1 : ℚ) < c * (scaled numerator denominator place).2 := by
    exact_mod_cast Iff.rfl
  rw [cast, ← div_lt_iff₀ some, quotient, div_div, div_lt_iff₀ (by positivity)]
  ring_nf

theorem lt_scaled_iff (positive : 0 < denominator) {numerator : ℕ} {place : ℤ} {c : ℕ} :
    c * (scaled numerator denominator place).2 < (scaled numerator denominator place).1 ↔
      denominator * (c * 10 ^ place) < (numerator : ℚ) := by
  have some : (0 : ℚ) < (scaled numerator denominator place).2 := by
    exact_mod_cast scaled_pos positive numerator place
  have some' : (0 : ℚ) < denominator := by exact_mod_cast positive
  have power : (0 : ℚ) < 10 ^ place := by positivity
  have quotient := scaled_eq numerator denominator place
  have cast : c * (scaled numerator denominator place).2 < (scaled numerator denominator place).1 ↔
      (c * (scaled numerator denominator place).2 : ℚ) < (scaled numerator denominator place).1 := by
    exact_mod_cast Iff.rfl
  rw [cast, ← lt_div_iff₀ some, quotient, div_div, lt_div_iff₀ (by positivity)]
  ring_nf

theorem scaled_bounds (positive : 0 < denominator) (numerator : ℕ) (place : ℤ) :
    let floor := (scaled numerator denominator place).1 / (scaled numerator denominator place).2
    (denominator : ℚ) * (floor * 10 ^ place) ≤ numerator ∧
      (numerator : ℚ) < denominator * ((floor + 1 : ℕ) * 10 ^ place) := by
  have some := scaled_pos positive numerator place
  refine ⟨le_of_not_gt fun less ↦ ?_, ?_⟩
  · exact ((scaled_lt_iff positive).mpr less).not_ge (Nat.div_mul_le_self _ _)
  · exact (scaled_lt_iff positive).mp (Nat.lt_mul_of_div_lt (Nat.lt_add_one _) some)

end Scaled

section Leading

/-- Whether a quotient has its first decimal digit at a place. -/
def IsLeading (numerator denominator : ℕ) (k : ℤ) : Prop :=
  (10 : ℚ) ^ k ≤ numerator / denominator ∧ (numerator / denominator : ℚ) < 10 ^ (k + 1)

theorem reached_iff (positive : 0 < denominator) (numerator : ℕ) (k : ℤ) :
    (if 0 ≤ k then Nat.pow 10 k.toNat * denominator ≤ numerator
      else denominator ≤ numerator * Nat.pow 10 (-k).toNat) ↔
      (10 : ℚ) ^ k ≤ numerator / denominator := by
  have some : (0 : ℚ) < denominator := Nat.cast_pos.mpr positive
  rw [le_div_iff₀ some]
  split_ifs with nonneg
  · obtain ⟨n, rfl⟩ := Int.eq_ofNat_of_zero_le nonneg
    rw [Int.toNat_natCast, Nat.pow_eq, zpow_natCast]
    exact_mod_cast Iff.rfl
  · obtain ⟨n, rfl⟩ := Int.exists_eq_neg_ofNat (le_of_not_ge nonneg)
    rw [Int.neg_neg, Int.toNat_natCast, Nat.pow_eq, zpow_neg, zpow_natCast,
      inv_mul_le_iff₀ (by positivity), mul_comm ((10 : ℚ) ^ n)]
    exact_mod_cast Iff.rfl

theorem leadingFrom_spec (positive : 0 < denominator) {fuel : ℕ}
    (low : (10 : ℚ) ^ k ≤ numerator / denominator)
    (high : (numerator / denominator : ℚ) < 10 ^ (k + fuel + 1)) :
    IsLeading numerator denominator (leadingFrom numerator denominator fuel k) := by
  induction fuel generalizing k with
  | zero =>
    rw [Nat.cast_zero, add_zero] at high
    exact ⟨low, high⟩
  | succ fuel ih =>
    have reached_iff := reached_iff positive numerator (k + 1)
    simp only [leadingFrom]
    by_cases reached : (10 : ℚ) ^ (k + 1) ≤ numerator / denominator
    · rw [if_pos (reached_iff.mpr reached)]
      refine ih reached (high.trans_eq ?_)
      congr 1
      push_cast
      ring
    · rw [if_neg (mt reached_iff.mp reached)]
      exact ⟨low, lt_of_not_ge reached⟩

/-- The logarithm of ten to base two is less than 196 / 59 and more than 93 / 28. -/
theorem pow_ten_le {j : ℤ} (above : 196 * k ≤ 59 * j) (below : 93 * k ≤ 28 * j) :
    (10 : ℚ) ^ k ≤ 2 ^ j := by
  rcases le_total 0 k with nonneg | neg
  · obtain ⟨n, rfl⟩ := Int.eq_ofNat_of_zero_le nonneg
    have ten : (10 : ℚ) ^ 59 ≤ 2 ^ 196 := by norm_num
    rw [← pow_le_pow_iff_left₀ (by positivity) (by positivity) (by decide : 59 ≠ 0)]
    calc ((10 : ℚ) ^ (n : ℤ)) ^ 59 = (10 ^ 59) ^ n := by rw [zpow_natCast, pow_right_comm]
      _ ≤ (2 ^ 196) ^ n := by gcongr
      _ = 2 ^ (196 * (n : ℤ)) := by rw [← pow_mul, ← zpow_natCast, Nat.cast_mul]; rfl
      _ ≤ 2 ^ (j * 59) := zpow_le_zpow_right₀ (by norm_num) (by omega)
      _ = (2 ^ j) ^ 59 := by rw [zpow_mul]; rfl
  · obtain ⟨n, rfl⟩ := Int.exists_eq_neg_ofNat neg
    have ten : (2 : ℚ) ^ 93 ≤ 10 ^ 28 := by norm_num
    rw [← pow_le_pow_iff_left₀ (by positivity) (by positivity) (by decide : 28 ≠ 0)]
    calc ((10 : ℚ) ^ (-(n : ℤ))) ^ 28 = ((10 ^ 28) ^ n)⁻¹ := by
          rw [zpow_neg, zpow_natCast, inv_pow, pow_right_comm]
      _ ≤ ((2 ^ 93) ^ n)⁻¹ := by gcongr
      _ = 2 ^ (-(93 * (n : ℤ))) := by rw [← pow_mul, zpow_neg, ← zpow_natCast, Nat.cast_mul]; rfl
      _ ≤ 2 ^ (j * 28) := zpow_le_zpow_right₀ (by norm_num) (by omega)
      _ = (2 ^ j) ^ 28 := by rw [zpow_mul]; rfl

theorem pow_two_le {j : ℤ} (above : 59 * j ≤ 196 * k) (below : 28 * j ≤ 93 * k) :
    (2 : ℚ) ^ j ≤ 10 ^ k := by
  have inverse : (10 : ℚ) ^ (-k) ≤ 2 ^ (-j) := pow_ten_le (by omega) (by omega)
  rw [zpow_neg, zpow_neg] at inverse
  exact (inv_le_inv₀ (by positivity) (by positivity)).mp inverse

theorem log2_bounds (some : 0 < numerator) (positive : 0 < denominator) :
    (2 : ℚ) ^ ((numerator.log2 : ℤ) - denominator.log2 - 1) ≤ numerator / denominator ∧
      (numerator / denominator : ℚ) < 2 ^ ((numerator.log2 : ℤ) - denominator.log2 + 1) := by
  have low : (2 : ℚ) ^ numerator.log2 ≤ numerator := by
    exact_mod_cast Nat.log2_self_le some.ne'
  have high : (numerator : ℚ) < 2 ^ (numerator.log2 + 1) := by exact_mod_cast Nat.lt_log2_self
  have low' : (2 : ℚ) ^ denominator.log2 ≤ denominator := by
    exact_mod_cast Nat.log2_self_le positive.ne'
  have high' : (denominator : ℚ) < 2 ^ (denominator.log2 + 1) := by exact_mod_cast Nat.lt_log2_self
  have some' : (0 : ℚ) < denominator := by exact_mod_cast positive
  constructor
  · calc (2 : ℚ) ^ ((numerator.log2 : ℤ) - denominator.log2 - 1)
      _ = 2 ^ numerator.log2 / 2 ^ (denominator.log2 + 1) := by
        rw [sub_sub, zpow_sub₀ two_ne_zero]
        norm_cast
      _ ≤ numerator / denominator := by gcongr
  · calc (numerator / denominator : ℚ)
      _ < 2 ^ (numerator.log2 + 1) / 2 ^ denominator.log2 := by gcongr
      _ = 2 ^ ((numerator.log2 : ℤ) - denominator.log2 + 1) := by
        rw [sub_add_eq_add_sub, zpow_sub₀ two_ne_zero]
        norm_cast

/-- The place of the first digit is found, as the estimate is not off by more than two. -/
theorem leadingOf_spec (some : 0 < numerator) (positive : 0 < denominator)
    (near : ((numerator.log2 : ℤ) - denominator.log2).natAbs ≤ 10000) :
    IsLeading numerator denominator (leadingOf numerator denominator) := by
  obtain ⟨low, high⟩ := log2_bounds some positive
  unfold leadingOf
  dsimp only
  generalize (numerator.log2 : ℤ) - denominator.log2 = distance at low high near ⊢
  refine leadingFrom_spec positive (le_trans (pow_ten_le ?_ ?_) low)
    (high.trans_le (pow_two_le ?_ ?_))
  all_goals
    push_cast
    omega

def lastPlace (numerator denominator width : ℕ) : ℤ := leadingOf numerator denominator + 1 - width

def floorOf (numerator denominator width : ℕ) : ℕ :=
  (scaled numerator denominator (lastPlace numerator denominator width)).1 /
    (scaled numerator denominator (lastPlace numerator denominator width)).2

theorem floorOf_bounds (positive : 0 < denominator) {width : ℕ} (wide : 0 < width)
    (isLeading : IsLeading numerator denominator (leadingOf numerator denominator)) :
    10 ^ (width - 1) ≤ floorOf numerator denominator width ∧
      floorOf numerator denominator width + 1 ≤ 10 ^ width := by
  obtain ⟨low, high⟩ := isLeading
  obtain ⟨below, above⟩ :=
    scaled_bounds positive numerator (lastPlace numerator denominator width)
  have some : (0 : ℚ) < denominator := Nat.cast_pos.mpr positive
  rw [le_div_iff₀ some] at low
  rw [div_lt_iff₀ some] at high
  change (denominator : ℚ) * (floorOf numerator denominator width * _) ≤ _ at below
  change _ < (denominator : ℚ) * ((floorOf numerator denominator width + 1 : ℕ) * _) at above
  generalize floorOf numerator denominator width = floor at below above ⊢
  have first : (10 : ℚ) ^ leadingOf numerator denominator =
      (10 ^ (width - 1) : ℕ) * 10 ^ lastPlace numerator denominator width := by
    rw [Nat.cast_pow, ← zpow_natCast, Nat.cast_ofNat, ← zpow_add₀ (by norm_num)]
    congr 1
    unfold lastPlace
    omega
  have next : (10 : ℚ) ^ (leadingOf numerator denominator + 1) =
      (10 ^ width : ℕ) * 10 ^ lastPlace numerator denominator width := by
    rw [Nat.cast_pow, ← zpow_natCast, Nat.cast_ofNat, ← zpow_add₀ (by norm_num)]
    congr 1
    unfold lastPlace
    omega
  have place : (0 : ℚ) < 10 ^ lastPlace numerator denominator width := by positivity
  rw [first, mul_comm] at low
  rw [next, mul_comm] at high
  have atLeast := lt_of_mul_lt_mul_right (lt_of_mul_lt_mul_left (low.trans_lt above) some.le) place.le
  have below := lt_of_mul_lt_mul_right (lt_of_mul_lt_mul_left (below.trans_lt high) some.le) place.le
  exact ⟨Nat.le_of_lt_succ (Nat.cast_lt.mp atLeast), Nat.cast_lt.mp below⟩

end Leading

section Digits

variable {digits width : ℕ} {leading : ℤ}

theorem ofRounded_value (wide : 0 < width) :
    (ofRounded digits width leading).value = digits * 10 ^ (leading + 1 - width) := by
  unfold ofRounded
  split_ifs with carried
  · obtain ⟨k, rfl⟩ := Nat.exists_eq_add_one_of_ne_zero wide.ne'
    have place : leading + 1 + 1 - ((k + 1 : ℕ) : ℤ) = 1 + (leading + 1 - (k + 1 : ℕ)) := by ring
    rw [carried, value, place, zpow_add₀ (by norm_num)]
    simp [pow_succ, mul_assoc]
  · rfl

theorem ofRounded_isFull (wide : 0 < width) (low : 10 ^ (width - 1) ≤ digits)
    (high : digits ≤ 10 ^ width) : (ofRounded digits width leading).IsFull := by
  unfold ofRounded
  split_ifs with carried
  · exact ⟨wide, le_rfl, Nat.pow_lt_pow_right (by decide) (Nat.sub_lt wide (by decide))⟩
  · exact ⟨wide, low, lt_of_le_of_ne high carried⟩

theorem trimmed_value (fuel : ℕ) (d : Decimal) : (trimmed fuel d).value = d.value := by
  induction fuel generalizing d with
  | zero => rfl
  | succ fuel ih =>
    unfold trimmed
    split_ifs with zero
    · obtain ⟨k, hk⟩ : ∃ k, d.width = k + 1 := ⟨d.width - 1, by omega⟩
      have digits : (d.digits : ℚ) = (d.digits / 10 : ℕ) * 10 := by
        exact_mod_cast (Nat.div_mul_cancel (Nat.dvd_of_mod_eq_zero zero.2)).symm
      have place : d.leading + 1 - (k : ℤ) = 1 + (d.leading + 1 - (k + 1 : ℕ)) := by push_cast; ring
      rw [ih, value, value, digits, hk, Nat.add_sub_cancel, place, zpow_add₀ (by norm_num)]
      ring
    · rfl

theorem trimmed_isFull (fuel : ℕ) {d : Decimal} (full : d.IsFull) : (trimmed fuel d).IsFull := by
  induction fuel generalizing d with
  | zero => exact full
  | succ fuel ih =>
    unfold trimmed
    split_ifs with zero
    · refine ih ⟨by dsimp only; omega, ?_, ?_⟩
      · obtain ⟨k, hk⟩ : ∃ k, d.width = k + 2 := ⟨d.width - 2, by omega⟩
        have low := full.low
        rw [hk] at low ⊢
        rw [Nat.le_div_iff_mul_le (by decide)]
        exact low
      · obtain ⟨k, hk⟩ : ∃ k, d.width = k + 1 := ⟨d.width - 1, by omega⟩
        have high := full.high
        rw [hk, Nat.pow_succ] at high
        rw [hk]
        exact Nat.div_lt_of_lt_mul (by rwa [mul_comm])
    · exact full

end Digits

end Decimal

end CallSearch
