import Mathlib.Data.Nat.Log
import CallSearch.Proofs.Double.Round
import CallSearch.Proofs.Number

namespace CallSearch

namespace Double

variable {negative : Bool} {significand shift numerator numerator' denominator : ℕ} {x y : Double}

def overflowDigits : ℕ := 2098

def placeOf (magnitude : ℕ) : Place :=
  if magnitude < 2 ^ overflowDigits then .inside magnitude else .top

theorem isFinite_ofSignificand (small : significand ≤ 2 * fractionCount)
    (normal : shift = 0 ∨ fractionCount ≤ significand) :
    (ofSignificand negative significand shift).isFinite ↔
      significand * 2 ^ shift < 2 ^ overflowDigits := by
  have full : 2 * fractionCount * 2 ^ shift = 2 ^ (53 + shift) := (Nat.pow_add 2 53 shift).symm
  by_cases subnormal : significand < fractionCount
  · obtain rfl : shift = 0 := normal.resolve_right (by omega)
    have below : (2 : ℕ) ^ 52 < 2 ^ overflowDigits := Nat.pow_lt_pow_right (by decide) (by decide)
    rw [ofSignificand, if_pos subnormal, Nat.pow_zero, Nat.mul_one]
    exact iff_of_true rfl (subnormal.trans below)
  · by_cases carried : significand = 2 * fractionCount
    · have exponent : (ofSignificand negative significand shift).isFinite ↔ shift + 2 < 2047 := by
        rw [ofSignificand, if_neg subnormal, if_pos carried]
        dsimp only
        split <;> simp_all [isFinite]
      rw [exponent, carried, full, Nat.pow_lt_pow_iff_right (by decide), overflowDigits]
      omega
    · have exponent : (ofSignificand negative significand shift).isFinite ↔ shift + 1 < 2047 := by
        rw [ofSignificand, if_neg subnormal, if_neg carried]
        dsimp only
        split <;> simp_all [isFinite]
      have low : 2 ^ (52 + shift) ≤ significand * 2 ^ shift :=
        (Nat.pow_add 2 52 shift).trans_le (Nat.mul_le_mul_right _ (Nat.not_lt.mp subnormal))
      have high : significand * 2 ^ shift < 2 ^ (53 + shift) := by
        rw [← full]
        exact Nat.mul_lt_mul_of_pos_right (lt_of_le_of_ne small carried) (Nat.two_pow_pos shift)
      rw [exponent]
      constructor
      · intro inside
        refine high.trans_le (Nat.pow_le_pow_right (by decide) ?_)
        rw [overflowDigits]
        omega
      · intro inside
        have digits := (Nat.pow_lt_pow_iff_right (by decide)).mp (low.trans_lt inside)
        rw [overflowDigits] at digits
        omega

theorem infinite_of_ofSignificand (h : ¬(ofSignificand negative significand shift).isFinite) :
    ofSignificand negative significand shift = .infinite negative := by
  unfold ofSignificand at h ⊢
  dsimp only at h ⊢
  split_ifs at h ⊢ <;> first | rfl | exact absurd rfl h

/-- What a quotient is rounded to, in units. -/
def rounded (numerator denominator : ℕ) : ℕ :=
  significandOf numerator denominator * 2 ^ shiftOf numerator denominator

theorem isFinite_ofUnitRatio :
    (ofUnitRatio negative numerator denominator).isFinite ↔
      rounded numerator denominator < 2 ^ overflowDigits :=
  isFinite_ofSignificand (significandOf_le _ _) (significandOf_normal _ _)

theorem place?_of_units? {units : ℤ} (h : x.units? = some units) :
    x.place? = some (.inside units) := by
  cases x with
  | nan | infinite => cases h
  | finite negative exponent fraction => exact congrArg (Option.map Place.inside) h

theorem place?_ofUnitRatio (negative : Bool) (numerator denominator : ℕ) :
    (ofUnitRatio negative numerator denominator).place? =
      some (if negative then (placeOf (rounded numerator denominator)).opposite
        else placeOf (rounded numerator denominator)) := by
  unfold placeOf
  by_cases inside : rounded numerator denominator < 2 ^ overflowDigits
  · rw [if_pos inside, place?_of_units? (units?_ofUnitRatio (isFinite_ofUnitRatio.mpr inside))]
    cases negative <;> rfl
  · have infinite : ofUnitRatio negative numerator denominator = .infinite negative :=
      infinite_of_ofSignificand (mt isFinite_ofUnitRatio.mp inside)
    rw [if_neg inside, infinite]
    cases negative <;> rfl

section Rounded

variable {m n d : ℕ}

theorem roundDiv_mono (h : m ≤ n) : roundDiv m d ≤ roundDiv n d := by
  have quotient : m / d ≤ n / d := Nat.div_le_div_right h
  rcases quotient.lt_or_eq with less | same
  · exact (roundDiv_bounds m d).2.trans (less.trans_le (roundDiv_bounds n d).1)
  · have rests : m % d ≤ n % d := by
      have hm := Nat.div_add_mod m d
      have hn := Nat.div_add_mod n d
      rw [same] at hm
      omega
    unfold roundDiv
    dsimp only
    rw [same]
    split_ifs <;> omega

theorem shiftOf_mono (h : m ≤ n) : shiftOf m d ≤ shiftOf n d := by
  rw [shiftOf, shiftOf, Nat.log2_eq_log_two, Nat.log2_eq_log_two]
  exact Nat.sub_le_sub_right (Nat.log_mono_right (Nat.div_le_div_right h)) 52

theorem rounded_mono (h : m ≤ n) : rounded m d ≤ rounded n d := by
  rcases (shiftOf_mono (d := d) h).lt_or_eq with less | same
  · have digits : (n / d).log2 = 52 + shiftOf n d := by
      unfold shiftOf at less ⊢
      omega
    have nonzero : n / d ≠ 0 := by
      intro zero
      rw [zero, Nat.log2_zero] at digits
      omega
    calc rounded m d ≤ 2 ^ 53 * 2 ^ shiftOf m d := Nat.mul_le_mul_right _ (significandOf_le m d)
      _ = 2 ^ (53 + shiftOf m d) := (Nat.pow_add 2 53 _).symm
      _ ≤ 2 ^ (52 + shiftOf n d) := Nat.pow_le_pow_right (by decide) (by omega)
      _ ≤ rounded n d := pow_le_significandOf (digits ▸ Nat.log2_self_le nonzero)
  · unfold rounded significandOf
    rw [same]
    exact Nat.mul_le_mul_right _ (roundDiv_mono h)

/-- Rounding adds less than one part in `2 ^ 52`, and one unit. -/
theorem rounded_le (numerator denominator : ℕ) :
    rounded numerator denominator ≤
      numerator / denominator + numerator / denominator / 2 ^ 52 + 1 := by
  have high := (roundDiv_bounds numerator (denominator * 2 ^ shiftOf numerator denominator)).2
  rw [← Nat.div_div_eq_div_mul] at high
  have step : 2 ^ shiftOf numerator denominator ≤ numerator / denominator / 2 ^ 52 + 1 := by
    by_cases unshifted : shiftOf numerator denominator = 0
    · rw [unshifted, Nat.pow_zero]
      exact Nat.le_add_left 1 _
    · have digits : (numerator / denominator).log2 = 52 + shiftOf numerator denominator := by
        unfold shiftOf at unshifted ⊢
        omega
      have nonzero : numerator / denominator ≠ 0 := by
        intro zero
        rw [zero, Nat.log2_zero] at digits
        omega
      have reached := Nat.log2_self_le nonzero
      rw [digits, Nat.pow_add, Nat.mul_comm] at reached
      exact Nat.le_succ_of_le ((Nat.le_div_iff_mul_le (by decide)).mpr reached)
  calc rounded numerator denominator
    _ ≤ (numerator / denominator / 2 ^ shiftOf numerator denominator + 1) *
          2 ^ shiftOf numerator denominator := Nat.mul_le_mul_right _ high
    _ = numerator / denominator / 2 ^ shiftOf numerator denominator *
          2 ^ shiftOf numerator denominator + 2 ^ shiftOf numerator denominator := by ring
    _ ≤ numerator / denominator + (numerator / denominator / 2 ^ 52 + 1) :=
      Nat.add_le_add (Nat.div_mul_le_self _ _) step

theorem roundDiv_mul (n : ℕ) (hd : 0 < d) : roundDiv (n * d) d = n := by
  simp [roundDiv, hd]

theorem rounded_significand {significand shift : ℕ} (small : significand < 2 * fractionCount)
    (normal : shift = 0 ∨ fractionCount ≤ significand) :
    rounded (significand * 2 ^ shift) 1 = significand * 2 ^ shift := by
  have scaled : shiftOf (significand * 2 ^ shift) 1 = shift := by
    rw [shiftOf, Nat.div_one]
    rcases eq_or_ne significand 0 with rfl | nonzero
    · obtain rfl : shift = 0 := normal.resolve_right (by decide)
      rw [Nat.zero_mul, Nat.log2_zero]
    · have positive : significand * 2 ^ shift ≠ 0 := Nat.mul_ne_zero nonzero (Nat.two_pow_pos _).ne'
      have high : (significand * 2 ^ shift).log2 < 53 + shift := by
        rw [Nat.log2_lt positive, Nat.pow_add]
        exact Nat.mul_lt_mul_of_pos_right small (Nat.two_pow_pos shift)
      rcases normal with rfl | large
      · omega
      · have low : 52 + shift ≤ (significand * 2 ^ shift).log2 := by
          rw [Nat.le_log2 positive, Nat.pow_add]
          exact Nat.mul_le_mul_right _ large
        omega
  rw [rounded, significandOf, scaled, Nat.one_mul, roundDiv_mul _ (Nat.two_pow_pos _)]

theorem rounded_unitsOf (exponent : ℕ) (fraction : Fin fractionCount) :
    rounded (unitsOf exponent fraction) 1 = unitsOf exponent fraction := by
  have small := fraction.isLt
  cases exponent with
  | zero =>
    have unshifted : rounded (fraction * 2 ^ 0) 1 = fraction * 2 ^ 0 :=
      rounded_significand (small.trans (by decide)) (.inl rfl)
    rwa [Nat.pow_zero, Nat.mul_one] at unshifted
  | succ above => exact rounded_significand (by omega) (.inr (Nat.le_add_right _ _))

end Rounded

theorem placeOf_mono {m n : ℕ} (h : m ≤ n) : placeOf m ≤ placeOf n := by
  unfold placeOf
  by_cases small : n < 2 ^ overflowDigits
  · rw [if_pos (h.trans_lt small), if_pos small]
    exact Place.inside_le_inside.mpr (Int.ofNat_le.mpr h)
  · rw [if_neg small]
    exact Place.le_top _

def roundedPlace (units : ℤ) : Place :=
  if units < 0 then (placeOf (rounded units.natAbs 1)).opposite else placeOf (rounded units.natAbs 1)

theorem roundedPlace_natCast (n : ℕ) : roundedPlace n = placeOf (rounded n 1) := by
  rw [roundedPlace, if_neg (by omega), Int.natAbs_natCast]

theorem roundedPlace_zero : roundedPlace 0 = .inside 0 := by
  have zero : rounded 0 1 = 0 := rounded_unitsOf 0 0
  have least : 0 < 2 ^ overflowDigits := Nat.two_pow_pos _
  rw [← Nat.cast_zero, roundedPlace_natCast, zero, placeOf, if_pos least]

theorem roundedPlace_neg_natCast (n : ℕ) : roundedPlace (-n) = (roundedPlace n).opposite := by
  rcases Nat.eq_zero_or_pos n with rfl | positive
  · rw [Nat.cast_zero, Int.neg_zero, roundedPlace_zero]
    rfl
  · rw [roundedPlace_natCast, roundedPlace, if_pos (by omega), Int.natAbs_neg, Int.natAbs_natCast]

theorem roundedPlace_neg (units : ℤ) : roundedPlace (-units) = (roundedPlace units).opposite := by
  obtain ⟨n, rfl | rfl⟩ := units.eq_nat_or_neg
  · exact roundedPlace_neg_natCast n
  · rw [Int.neg_neg, roundedPlace_neg_natCast, Place.opposite_opposite]

theorem zero_le_roundedPlace (n : ℕ) : .inside 0 ≤ roundedPlace n := by
  rw [← roundedPlace_zero, ← Nat.cast_zero, roundedPlace_natCast, roundedPlace_natCast]
  exact placeOf_mono (rounded_mono (Nat.zero_le n))

theorem roundedPlace_mono {m n : ℤ} (h : m ≤ n) : roundedPlace m ≤ roundedPlace n := by
  obtain ⟨m, rfl | rfl⟩ := m.eq_nat_or_neg <;> obtain ⟨n, rfl | rfl⟩ := n.eq_nat_or_neg
  · rw [roundedPlace_natCast, roundedPlace_natCast]
    exact placeOf_mono (rounded_mono (Int.ofNat_le.mp h))
  · obtain ⟨rfl, rfl⟩ : m = 0 ∧ n = 0 := by omega
    exact le_rfl
  · have below := Place.opposite_le_opposite (zero_le_roundedPlace m)
    rw [roundedPlace_neg]
    exact below.trans (zero_le_roundedPlace n)
  · rw [roundedPlace_neg, roundedPlace_neg, roundedPlace_natCast, roundedPlace_natCast]
    exact Place.opposite_le_opposite (placeOf_mono (rounded_mono (by omega)))

theorem unitsOf_lt (exponent : Fin 2047) (fraction : Fin fractionCount) :
    unitsOf exponent fraction < 2 ^ overflowDigits := by
  obtain ⟨exponent, bound⟩ := exponent
  have small := fraction.isLt
  cases exponent with
  | zero =>
    have least : (2 : ℕ) ^ 52 ≤ 2 ^ overflowDigits := Nat.pow_le_pow_right (by decide) (by decide)
    exact small.trans_le least
  | succ above =>
    calc (fractionCount + fraction) * 2 ^ above < 2 * fractionCount * 2 ^ above :=
          Nat.mul_lt_mul_of_pos_right (by omega) (Nat.two_pow_pos above)
      _ = 2 ^ (53 + above) := (Nat.pow_add 2 53 above).symm
      _ ≤ 2 ^ overflowDigits := Nat.pow_le_pow_right (by decide) (by rw [overflowDigits]; omega)

theorem roundedPlace_eq {units : ℤ} (h : x.place? = some (.inside units)) :
    roundedPlace units = .inside units := by
  cases x with
  | nan => cases h
  | infinite negative => cases negative <;> cases h
  | finite negative exponent fraction =>
    have unsigned :
        roundedPlace (unitsOf exponent fraction) = .inside (unitsOf exponent fraction) := by
      rw [roundedPlace_natCast, rounded_unitsOf, placeOf, if_pos (unitsOf_lt exponent fraction)]
    obtain rfl := Place.inside.inj (Option.some.inj h)
    cases negative with
    | false => exact unsigned
    | true =>
      rw [if_pos rfl, roundedPlace_neg, unsigned]
      rfl

theorem add_finite {m n : ℤ} (hx : x.units? = some m) (hy : y.units? = some n) :
    (x.add y).place? = some (roundedPlace (m + n)) := by
  have sum : ∃ negative, x.add y =
      if m + n = 0 then signedZero negative else ofUnitRatio (m + n < 0) (m + n).natAbs 1 := by
    cases x with
    | nan | infinite => cases hx
    | finite a =>
      cases y with
      | nan | infinite => cases hy
      | finite b =>
        refine ⟨a && b, ?_⟩
        rw [add, hx, hy]
        rfl
  obtain ⟨negative, sum⟩ := sum
  rw [sum]
  split_ifs with zero
  · rw [zero, roundedPlace_zero]
    cases negative <;> rfl
  · rw [place?_ofUnitRatio, roundedPlace]
    simp only [decide_eq_true_eq]

end Double

/-- The place of a sum: the units of two numbers are added and rounded. -/
def Place.sum? : Place → Place → Option Place
  | .bottom, .top => none
  | .top, .bottom => none
  | .inside m, .inside n => some (Double.roundedPlace (m + n))
  | .inside _, q => some q
  | p, _ => some p

namespace Double

variable {x y : Double}

theorem place?_add (x y : Double) :
    (x.add y).place? = x.place?.bind fun p ↦ y.place?.bind p.sum? := by
  cases x with
  | nan => rfl
  | infinite a => cases y with
    | nan => cases a <;> rfl
    | infinite b => cases a <;> cases b <;> rfl
    | finite => cases a <;> rfl
  | finite => cases y with
    | nan => rfl
    | infinite b => cases b <;> rfl
    | finite => exact add_finite rfl rfl

theorem place?_neg (x : Double) : x.neg.place? = x.place?.map Place.opposite := by
  cases x with
  | nan => rfl
  | infinite negative => cases negative <;> rfl
  | finite negative exponent fraction => cases negative <;> simp [neg, place?, Place.opposite]

theorem le_unitsPerOne : 2 ^ 60 ≤ unitsPerOne := by
  rw [unitsPerOne_eq]
  exact Nat.pow_le_pow_right (by decide) (by decide)

theorem isFinite_ofInt {n : ℤ} :
    (ofInt n).isFinite ↔ rounded (n.natAbs * unitsPerOne) 1 < 2 ^ overflowDigits :=
  isFinite_ofUnitRatio

theorem isFinite_ofInt_natCast {n : ℕ} :
    (ofInt n).isFinite ↔ rounded (n * unitsPerOne) 1 < 2 ^ overflowDigits := isFinite_ofInt

theorem units?_ofInt_natCast {n : ℕ} (finite : (ofInt n).isFinite) :
    (ofInt n).units? = some (rounded (n * unitsPerOne) 1 : ℤ) := by
  have positive : decide ((n : ℤ) < 0) = false := by simp
  rw [ofInt, ofRatio, positive] at finite ⊢
  exact units?_ofUnitRatio finite

theorem isFinite_iff {x : Double} (number : x.isNan = false) :
    x.isFinite ↔ x.notInfinite?.isSome := by
  cases x with
  | nan => cases number
  | infinite | finite => simp [isFinite, notInfinite?]

theorem isFinite_ofInt_iff {n : ℤ} : (ofInt n).isFinite ↔ (ofInt? n).isSome :=
  isFinite_iff (isNan_ofInt n)

theorem isFinite_ofInt_mono {m n : ℕ} (h : m ≤ n) (fits : (ofInt n).isFinite) :
    (ofInt m).isFinite := by
  rw [isFinite_ofInt_natCast] at fits ⊢
  exact (rounded_mono (Nat.mul_le_mul_right _ h)).trans_lt fits

/-- The least whole number that is at least as near to `2 ^ 1024` as to the greatest floating point
number. -/
def tooLargeFrom : ℕ := 2 ^ 1024 - 2 ^ 970

theorem ofInt?_isSome_iff {n : ℤ} : (ofInt? n).isSome ↔ n.natAbs < tooLargeFrom := by
  rw [← isFinite_ofInt_iff, isFinite_ofInt]
  have last : rounded ((tooLargeFrom - 1) * unitsPerOne) 1 < 2 ^ overflowDigits := by decide +kernel
  have first : 2 ^ overflowDigits ≤ rounded (tooLargeFrom * unitsPerOne) 1 := by decide +kernel
  constructor
  · intro fits
    by_contra large
    exact (first.trans (rounded_mono (Nat.mul_le_mul_right _ (not_lt.mp large)))).not_gt fits
  · intro small
    have below : n.natAbs ≤ tooLargeFrom - 1 := Nat.le_sub_one_of_lt small
    exact (rounded_mono (Nat.mul_le_mul_right _ below)).trans_lt last

theorem le_tooLargeFrom : 2 ^ 63 ≤ tooLargeFrom := by decide +kernel

theorem place?_ofInt (n : ℤ) : (ofInt n).place? = some (roundedPlace (n * unitsPerOne)) := by
  have sign : n * unitsPerOne < 0 ↔ n < 0 := by
    have positive : (0 : ℤ) < unitsPerOne := Int.natCast_pos.mpr unitsPerOne_pos
    exact ⟨fun h ↦ lt_of_not_ge fun nonneg ↦ h.not_ge (Int.mul_nonneg nonneg positive.le),
      fun h ↦ Int.mul_neg_of_neg_of_pos h positive⟩
  rw [ofInt, ofRatio, place?_ofUnitRatio, roundedPlace, Int.natAbs_mul, Int.natAbs_natCast]
  simp only [decide_eq_true_eq, sign]

end Double

namespace Place

variable {p q q' s : Place}

theorem sum?_mono (hs : p.sum? q = some s) (below : s < top) (h : q' ≤ q) :
    ∃ s', p.sum? q' = some s' ∧ s' ≤ s := by
  cases p <;> cases q <;> cases hs <;> cases q' <;> simp_all [sum?, bottom_le]
  case inside.inside.refl.inside => exact Double.roundedPlace_mono (by omega)

theorem le_sum? (fixed : ∀ units, p = inside units → Double.roundedPlace units = p)
    (nonneg : inside 0 ≤ q) (hs : p.sum? q = some s) : p ≤ s := by
  cases p <;> cases q <;> cases hs <;> simp_all [le_top]
  case inside.inside.refl m n =>
    rw [← fixed]
    exact Double.roundedPlace_mono (by omega)

end Place

end CallSearch
