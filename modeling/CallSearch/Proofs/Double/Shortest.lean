import Mathlib.Tactic.Linarith
import CallSearch.Proofs.Double.Decimal
import CallSearch.Proofs.Double.Order

namespace CallSearch

namespace Double

section Interval

variable {exponent fraction exponent' fraction' : ℕ}

/-- How many units lie between numbers with an exponent. -/
def spacing (exponent : ℕ) : ℕ := 2 ^ (exponent - 1)

theorem spacing_pos (exponent : ℕ) : 0 < spacing exponent := Nat.two_pow_pos _

/-- How many units lie between a number and the one below it. -/
def spacingBelow (exponent fraction : ℕ) : ℕ :=
  if fraction = 0 ∧ 1 < exponent then spacing exponent / 2 else spacing exponent

theorem roundingInterval_eq (exponent fraction : ℕ) :
    roundingInterval exponent fraction =
      (4 * unitsOf exponent fraction - 2 * spacingBelow exponent fraction,
        4 * unitsOf exponent fraction, 4 * unitsOf exponent fraction + 2 * spacing exponent) := by
  have half : 2 * Nat.pow 2 (exponent - 1) = 2 * spacing exponent := rfl
  simp only [roundingInterval, half, spacingBelow]
  split_ifs with first
  · have even : 2 * spacing exponent / 2 = 2 * (spacing exponent / 2) := by
      obtain ⟨k, hk⟩ : ∃ k, exponent = k + 2 := ⟨exponent - 2, by omega⟩
      have doubled : spacing exponent = 2 * 2 ^ k := by
        rw [hk]
        exact Nat.pow_succ'
      omega
    rw [even]
  · rfl

theorem start_le (positive : 0 < exponent) (fraction : ℕ) :
    fractionCount * spacing exponent ≤ unitsOf exponent fraction := by
  obtain ⟨above, rfl⟩ := Nat.exists_eq_add_one_of_ne_zero positive.ne'
  exact Nat.mul_le_mul_right _ (Nat.le_add_right _ _)

theorem add_spacing_le (exponent : ℕ) (small : fraction < fractionCount) :
    unitsOf exponent fraction + spacing exponent ≤ fractionCount * 2 ^ exponent := by
  cases exponent with
  | zero =>
    rw [Nat.pow_zero, Nat.mul_one]
    exact small
  | succ above =>
    calc (fractionCount + fraction) * 2 ^ above + 2 ^ above
      _ = (fractionCount + fraction + 1) * 2 ^ above := by ring
      _ ≤ 2 * fractionCount * 2 ^ above := Nat.mul_le_mul_right _ (by omega)
      _ = fractionCount * 2 ^ (above + 1) := by ring

theorem spacingBelow_le (exponent fraction : ℕ) :
    spacingBelow exponent fraction ≤ spacing exponent := by
  unfold spacingBelow
  split_ifs
  · exact Nat.div_le_self _ _
  · exact le_rfl

theorem pow_le_of_exponent_lt (less : exponent < exponent') (fraction' : ℕ) :
    fractionCount * 2 ^ exponent ≤ unitsOf exponent' fraction' :=
  (Nat.mul_le_mul_left _ (Nat.pow_le_pow_right (by decide) (by omega))).trans
    (start_le (by omega) fraction')

theorem unitsOf_lt_of_fraction (exponent : ℕ) (less : fraction < fraction') :
    unitsOf exponent fraction + spacing exponent ≤ unitsOf exponent fraction' := by
  cases exponent with
  | zero => exact less
  | succ above =>
    calc (fractionCount + fraction) * 2 ^ above + 2 ^ above
      _ = (fractionCount + fraction + 1) * 2 ^ above := by ring
      _ ≤ (fractionCount + fraction') * 2 ^ above := Nat.mul_le_mul_right _ (by omega)

theorem lt_cases (small' : fraction' < fractionCount)
    (less : unitsOf exponent fraction < unitsOf exponent' fraction') :
    exponent < exponent' ∨ exponent = exponent' ∧ fraction < fraction' := by
  rcases lt_trichotomy exponent exponent' with below | rfl | above
  · exact .inl below
  · refine .inr ⟨rfl, lt_of_not_ge fun notLess ↦ ?_⟩
    rcases notLess.eq_or_lt with rfl | greater
    · exact less.false
    · have := unitsOf_lt_of_fraction exponent greater
      omega
  · have top := add_spacing_le exponent' small'
    have start := pow_le_of_exponent_lt above fraction
    omega

theorem last_of_eq (h : unitsOf exponent fraction + spacing exponent = fractionCount * 2 ^ exponent) :
    fraction + 1 = fractionCount := by
  cases exponent with
  | zero =>
    rw [Nat.pow_zero, Nat.mul_one] at h
    exact h
  | succ above =>
    have steps : (fractionCount + (fraction + 1)) * 2 ^ above =
        (fractionCount + fractionCount) * 2 ^ above := by
      calc (fractionCount + (fraction + 1)) * 2 ^ above
        _ = (fractionCount + fraction) * 2 ^ above + 2 ^ above := by ring
        _ = fractionCount * 2 ^ (above + 1) := h
        _ = (fractionCount + fractionCount) * 2 ^ above := by ring
    exact Nat.add_left_cancel (Nat.mul_right_cancel (Nat.two_pow_pos above) steps)

theorem add_spacingBelow_le (small : fraction < fractionCount) (less : exponent < exponent')
    (fraction' : ℕ) :
    unitsOf exponent fraction + spacingBelow exponent' fraction' ≤ unitsOf exponent' fraction' := by
  have top := add_spacing_le exponent small
  have start := pow_le_of_exponent_lt less fraction'
  by_cases first : fraction' = 0
  · subst first
    rcases Nat.lt_or_ge (exponent + 1) exponent' with far | near
    · obtain ⟨k, rfl⟩ : ∃ k, exponent' = k + 2 := ⟨exponent' - 2, by omega⟩
      have below : spacingBelow (k + 2) 0 ≤ 2 ^ (k + 1) := spacingBelow_le _ _
      have lower : fractionCount * 2 ^ exponent ≤ fractionCount * 2 ^ k :=
        Nat.mul_le_mul_left _ (Nat.pow_le_pow_right (by decide) (by omega))
      have units : unitsOf (k + 2) 0 = fractionCount * 2 ^ k + fractionCount * 2 ^ k := by
        change (fractionCount + 0) * 2 ^ (k + 1) = _
        ring
      have power : 2 ^ (k + 1) ≤ fractionCount * 2 ^ k := by
        rw [Nat.pow_succ']
        exact Nat.mul_le_mul_right _ (by decide)
      omega
    · obtain rfl : exponent' = exponent + 1 := by omega
      have below : spacingBelow (exponent + 1) 0 ≤ spacing exponent := by
        cases exponent with
        | zero => exact le_rfl
        | succ above =>
          have half : spacing (above + 2) / 2 = spacing (above + 1) := by
            change 2 ^ (above + 1) / 2 = 2 ^ above
            rw [Nat.pow_succ, Nat.mul_div_cancel _ (by decide)]
          rw [spacingBelow, if_pos ⟨rfl, by omega⟩, half]
      omega
  · have next := unitsOf_lt_of_fraction exponent' (Nat.pos_of_ne_zero first)
    have start := pow_le_of_exponent_lt less 0
    have below := spacingBelow_le exponent' fraction'
    omega

/-- Two magnitudes are apart by at least what lies above the one and by at least what lies below the
other, and if the one is next to the other, one of them has an odd fraction. -/
theorem apart (small : fraction < fractionCount) (small' : fraction' < fractionCount)
    (less : unitsOf exponent fraction < unitsOf exponent' fraction') :
    unitsOf exponent fraction + spacing exponent ≤ unitsOf exponent' fraction' ∧
      unitsOf exponent fraction + spacingBelow exponent' fraction' ≤ unitsOf exponent' fraction' ∧
      (unitsOf exponent fraction + spacing exponent = unitsOf exponent' fraction' →
        fraction % 2 ≠ 0 ∨ fraction' % 2 ≠ 0) := by
  rcases lt_cases small' less with below | ⟨rfl, below⟩
  · have top := add_spacing_le exponent small
    have start := pow_le_of_exponent_lt below fraction'
    refine ⟨top.trans start, add_spacingBelow_le small below fraction', fun same ↦ .inl ?_⟩
    have last : fraction + 1 = 4503599627370496 := last_of_eq (le_antisymm top (same ▸ start))
    omega
  · have next := unitsOf_lt_of_fraction exponent below
    refine ⟨next, (Nat.add_le_add_left (spacingBelow_le _ _) _).trans next, fun same ↦ ?_⟩
    have follows : fraction' = fraction + 1 := by
      by_contra other
      have before := unitsOf_lt_of_fraction exponent (Nat.lt_add_one fraction)
      have after := unitsOf_lt_of_fraction exponent (by omega : fraction + 1 < fraction')
      have := spacing_pos exponent
      omega
    omega

theorem eq_of_unitsOf_eq (small : fraction < fractionCount) (small' : fraction' < fractionCount)
    (same : unitsOf exponent fraction = unitsOf exponent' fraction') :
    exponent = exponent' ∧ fraction = fraction' := by
  have top := add_spacing_le exponent small
  have top' := add_spacing_le exponent' small'
  have some := spacing_pos exponent
  have some' := spacing_pos exponent'
  rcases lt_trichotomy exponent exponent' with below | rfl | above
  · have := pow_le_of_exponent_lt below fraction'
    omega
  · rcases lt_trichotomy fraction fraction' with less | rfl | greater
    · have := unitsOf_lt_of_fraction exponent less
      omega
    · exact ⟨rfl, rfl⟩
    · have := unitsOf_lt_of_fraction exponent greater
      omega
  · have := pow_le_of_exponent_lt above fraction
    omega

/-- Whether a number is one of those that round to a magnitude: those that are nearer to it than to
any other, and if its fraction is even, those in the middle. -/
def RoundsTo (exponent fraction : ℕ) (q : ℚ) : Prop :=
  let (low, _, high) := roundingInterval exponent fraction
  if fraction % 2 = 0 then low ≤ 4 * unitsPerOne * q ∧ 4 * unitsPerOne * q ≤ high
  else low < 4 * unitsPerOne * q ∧ 4 * unitsPerOne * q < high

variable {q : ℚ}

theorem RoundsTo.bounds (h : RoundsTo exponent fraction q) :
    (4 * unitsOf exponent fraction : ℚ) ≤
        4 * unitsPerOne * q + 2 * spacingBelow exponent fraction ∧
      (4 * unitsPerOne * q : ℚ) ≤ 4 * unitsOf exponent fraction + 2 * spacing exponent ∧
      (fraction % 2 ≠ 0 →
        (4 * unitsOf exponent fraction : ℚ) <
            4 * unitsPerOne * q + 2 * spacingBelow exponent fraction ∧
          (4 * unitsPerOne * q : ℚ) < 4 * unitsOf exponent fraction + 2 * spacing exponent) := by
  have low : (4 * unitsOf exponent fraction : ℚ) ≤
      ((4 * unitsOf exponent fraction - 2 * spacingBelow exponent fraction : ℕ) : ℚ) +
        2 * spacingBelow exponent fraction := by
    exact_mod_cast (le_tsub_add :
      4 * unitsOf exponent fraction ≤ _ - 2 * spacingBelow exponent fraction + _)
  unfold RoundsTo at h
  rw [roundingInterval_eq] at h
  dsimp only at h
  split_ifs at h with even
  · obtain ⟨lower, upper⟩ := h
    push_cast at upper
    exact ⟨low.trans (by gcongr), upper, fun odd ↦ absurd even odd⟩
  · obtain ⟨lower, upper⟩ := h
    push_cast at upper
    have lower : (4 * unitsOf exponent fraction : ℚ) <
        4 * unitsPerOne * q + 2 * spacingBelow exponent fraction := by linarith
    exact ⟨lower.le, upper.le, fun _ ↦ ⟨lower, upper⟩⟩

theorem RoundsTo.not_less (small : fraction < fractionCount) (small' : fraction' < fractionCount)
    (h : RoundsTo exponent fraction q) (h' : RoundsTo exponent' fraction' q) :
    ¬unitsOf exponent fraction < unitsOf exponent' fraction' := by
  intro less
  obtain ⟨above, below, odd⟩ := apart small small' less
  obtain ⟨-, upper, strictUpper⟩ := h.bounds
  obtain ⟨lower, -, strictLower⟩ := h'.bounds
  have above' : (unitsOf exponent fraction + spacing exponent : ℚ) ≤
      unitsOf exponent' fraction' := by exact_mod_cast above
  have below' : (unitsOf exponent fraction + spacingBelow exponent' fraction' : ℚ) ≤
      unitsOf exponent' fraction' := by exact_mod_cast below
  -- All these bounds leave no room, so both magnitudes would have to take in the middle.
  have same : (unitsOf exponent fraction + spacing exponent : ℚ) = unitsOf exponent' fraction' := by
    linarith
  rcases odd (by exact_mod_cast same) with odd | odd
  · have := (strictUpper odd).2
    linarith
  · have := (strictLower odd).1
    linarith

/-- No number rounds to two magnitudes. -/
theorem RoundsTo.unique (small : fraction < fractionCount) (small' : fraction' < fractionCount)
    (h : RoundsTo exponent fraction q) (h' : RoundsTo exponent' fraction' q) :
    exponent = exponent' ∧ fraction = fraction' :=
  eq_of_unitsOf_eq small small'
    (le_antisymm (not_lt.mp (h'.not_less small' small h)) (not_lt.mp (h.not_less small small' h')))

end Interval

section Width

variable {exponent fraction width : ℕ}

def readsBack (exponent fraction : ℕ) (place : ℤ) (candidate : ℕ) : Bool :=
  let low := Decimal.scaled (4 * unitsOf exponent fraction - 2 * spacingBelow exponent fraction)
    (4 * unitsPerOne) place
  let high := Decimal.scaled (4 * unitsOf exponent fraction + 2 * spacing exponent)
    (4 * unitsPerOne) place
  let strict := !decide (fraction % 2 = 0)
  0 < candidate && (if strict then low.1 < candidate * low.2 else low.1 ≤ candidate * low.2) &&
    (if strict then candidate * high.2 < high.1 else candidate * high.2 ≤ high.1)

def lastPlace (exponent fraction width : ℕ) : ℤ :=
  Decimal.lastPlace (4 * unitsOf exponent fraction) (4 * unitsPerOne) width

def candidates (exponent fraction width : ℕ) : ℕ × ℕ :=
  let (n, d) := Decimal.scaled (4 * unitsOf exponent fraction) (4 * unitsPerOne)
    (lastPlace exponent fraction width)
  let nearest := roundDiv n d
  (nearest, if nearest = n / d then n / d + 1 else n / d)

theorem ofWidth?_eq (exponent fraction width : ℕ) :
    ofWidth? exponent fraction width =
      (if readsBack exponent fraction (lastPlace exponent fraction width)
            (candidates exponent fraction width).1 then
          some (candidates exponent fraction width).1
        else if readsBack exponent fraction (lastPlace exponent fraction width)
            (candidates exponent fraction width).2 then
          some (candidates exponent fraction width).2
        else none).map fun digits ↦ Decimal.ofRounded digits width
          (Decimal.leadingOf (4 * unitsOf exponent fraction) (4 * unitsPerOne)) := by
  unfold ofWidth? candidates readsBack lastPlace Decimal.lastPlace
  rw [roundingInterval_eq]

theorem quarter_pos : 0 < 4 * unitsPerOne := Nat.mul_pos (by decide) unitsPerOne_pos

theorem readsBack_iff {place : ℤ} {c : ℕ} :
    readsBack exponent fraction place c ↔ 0 < c ∧ RoundsTo exponent fraction (c * 10 ^ place) := by
  have cast : ((4 * unitsPerOne : ℕ) : ℚ) = 4 * unitsPerOne := Nat.cast_mul 4 unitsPerOne
  have above (bound : ℕ) := @Decimal.scaled_lt_iff _ quarter_pos bound place c
  have below (bound : ℕ) := @Decimal.lt_scaled_iff _ quarter_pos bound place c
  simp only [cast] at above below
  unfold readsBack RoundsTo
  rw [roundingInterval_eq]
  by_cases even : fraction % 2 = 0
  · simp only [even, decide_true, Bool.not_true, Bool.false_eq_true, if_false, if_true,
      Bool.and_eq_true, decide_eq_true_eq, ← not_lt, above, below, and_assoc]
  · simp only [even, decide_false, Bool.not_false, if_false, if_true, Bool.and_eq_true,
      decide_eq_true_eq, above, below, and_assoc]

def floorOf (exponent fraction width : ℕ) : ℕ :=
  Decimal.floorOf (4 * unitsOf exponent fraction) (4 * unitsPerOne) width

theorem candidates_cases (exponent fraction width : ℕ) :
    candidates exponent fraction width =
        (floorOf exponent fraction width, floorOf exponent fraction width + 1) ∨
      candidates exponent fraction width =
        (floorOf exponent fraction width + 1, floorOf exponent fraction width) := by
  unfold candidates floorOf Decimal.floorOf lastPlace
  generalize Decimal.scaled (4 * unitsOf exponent fraction) (4 * unitsPerOne)
    (Decimal.lastPlace (4 * unitsOf exponent fraction) (4 * unitsPerOne) width) = quotient
  obtain ⟨n, d⟩ := quotient
  dsimp only
  by_cases down : roundDiv n d = n / d
  · exact .inl (by rw [if_pos down, down])
  · have up : roundDiv n d = n / d + 1 := by
      obtain ⟨low, high⟩ := roundDiv_bounds n d
      omega
    exact .inr (by rw [if_neg down, up])

/-- A decimal of some width is one of the two next to the magnitude, and reads back as it. -/
theorem ofWidth?_found {d : Decimal} (found : ofWidth? exponent fraction width = some d) :
    ∃ c, (c = floorOf exponent fraction width ∨ c = floorOf exponent fraction width + 1) ∧
      RoundsTo exponent fraction (c * 10 ^ lastPlace exponent fraction width) ∧
      d = Decimal.ofRounded c width
        (Decimal.leadingOf (4 * unitsOf exponent fraction) (4 * unitsPerOne)) := by
  rw [ofWidth?_eq] at found
  obtain ⟨c, chosen, rfl⟩ := Option.map_eq_some_iff.mp found
  obtain ⟨either, reads⟩ : (c = (candidates exponent fraction width).1 ∨
        c = (candidates exponent fraction width).2) ∧
      readsBack exponent fraction (lastPlace exponent fraction width) c := by
    split_ifs at chosen with first second
    · obtain rfl := Option.some.inj chosen
      exact ⟨.inl rfl, first⟩
    · obtain rfl := Option.some.inj chosen
      exact ⟨.inr rfl, second⟩
  refine ⟨c, ?_, (readsBack_iff.mp reads).2, rfl⟩
  have cases := candidates_cases exponent fraction width
  generalize floorOf exponent fraction width = floor at cases ⊢
  rcases cases with same | same
  · rw [same] at either
    exact either
  · rw [same] at either
    exact either.symm

theorem ofWidth?_ne_none (some : 0 < floorOf exponent fraction width)
    (h : RoundsTo exponent fraction
          (floorOf exponent fraction width * 10 ^ lastPlace exponent fraction width) ∨
        RoundsTo exponent fraction
          ((floorOf exponent fraction width + 1 : ℕ) * 10 ^ lastPlace exponent fraction width)) :
    ofWidth? exponent fraction width ≠ none := by
  have reads : readsBack exponent fraction (lastPlace exponent fraction width)
        (floorOf exponent fraction width) ∨
      readsBack exponent fraction (lastPlace exponent fraction width)
        (floorOf exponent fraction width + 1) :=
    h.imp (fun h ↦ readsBack_iff.mpr ⟨some, h⟩) fun h ↦ readsBack_iff.mpr ⟨Nat.succ_pos _, h⟩
  have cases := candidates_cases exponent fraction width
  generalize floorOf exponent fraction width = floor at cases reads
  rw [ofWidth?_eq, Ne, Option.map_eq_none_iff]
  split_ifs with first second
  · exact not_false
  · exact not_false
  · rcases cases with same | same <;> rw [same] at first second
    · exact absurd reads (not_or.mpr ⟨first, second⟩)
    · exact absurd reads (not_or.mpr ⟨second, first⟩)

theorem spacingBelow_le_unitsOf (some : 0 < unitsOf exponent fraction) :
    spacingBelow exponent fraction ≤ unitsOf exponent fraction := by
  refine (spacingBelow_le exponent fraction).trans ?_
  rcases exponent.eq_zero_or_pos with rfl | positive
  · exact some
  · exact (Nat.le_mul_of_pos_left _ (by decide)).trans (start_le positive fraction)

theorem RoundsTo.of_strict {q : ℚ} (some : 0 < unitsOf exponent fraction)
    (lower : (4 * unitsOf exponent fraction : ℚ) <
      4 * unitsPerOne * q + 2 * spacingBelow exponent fraction)
    (upper : (4 * unitsPerOne * q : ℚ) < 4 * unitsOf exponent fraction + 2 * spacing exponent) :
    RoundsTo exponent fraction q := by
  have low : ((4 * unitsOf exponent fraction - 2 * spacingBelow exponent fraction : ℕ) : ℚ) =
      4 * unitsOf exponent fraction - 2 * spacingBelow exponent fraction := by
    have inside := spacingBelow_le_unitsOf some
    rw [Nat.cast_sub (by omega), Nat.cast_mul, Nat.cast_mul]
    rfl
  have high : ((4 * unitsOf exponent fraction + 2 * spacing exponent : ℕ) : ℚ) =
      4 * unitsOf exponent fraction + 2 * spacing exponent := by push_cast; rfl
  unfold RoundsTo
  rw [roundingInterval_eq]
  dsimp only
  rw [low, high]
  split_ifs
  · exact ⟨by linarith, by linarith⟩
  · exact ⟨by linarith, by linarith⟩

/-- A magnitude has less than `2 ^ 53` times the distance to its neighbours, and the first one of an
exponent, which is nearer to the one below it, less than that. -/
theorem unitsOf_narrow (exponent : ℕ) (small : fraction < fractionCount) :
    spacingBelow exponent fraction = spacing exponent ∧
        unitsOf exponent fraction ≤ 2 * fractionCount * spacing exponent ∨
      2 * spacingBelow exponent fraction = spacing exponent ∧
        unitsOf exponent fraction = fractionCount * spacing exponent := by
  by_cases first : fraction = 0 ∧ 1 < exponent
  · obtain ⟨k, rfl⟩ : ∃ k, exponent = k + 2 := ⟨exponent - 2, by omega⟩
    refine .inr ⟨?_, ?_⟩
    · rw [spacingBelow, if_pos first]
      exact Nat.mul_div_cancel' ⟨2 ^ k, Nat.pow_succ'⟩
    · rw [first.1]
      rfl
  · refine .inl ⟨if_neg first, (Nat.le_of_add_right_le (add_spacing_le exponent small)).trans ?_⟩
    cases exponent with
    | zero => exact Nat.mul_le_mul_right _ (by decide)
    | succ above =>
      have double : fractionCount * 2 ^ (above + 1) = 2 * fractionCount * 2 ^ above := by ring
      exact double.le

theorem roundsTo_of_between {q r : ℚ} (some : 0 < unitsOf exponent fraction)
    (below : (4 * unitsPerOne * q : ℚ) ≤ 4 * unitsOf exponent fraction)
    (above : (4 * unitsOf exponent fraction : ℚ) < 4 * unitsPerOne * r)
    (near : (4 * unitsPerOne * r : ℚ) <
      4 * unitsPerOne * q + (2 * spacingBelow exponent fraction + 2 * spacing exponent)) :
    RoundsTo exponent fraction q ∨ RoundsTo exponent fraction r := by
  have apart : (0 : ℚ) < spacing exponent := Nat.cast_pos.mpr (spacing_pos exponent)
  have apartBelow : (0 : ℚ) ≤ spacingBelow exponent fraction := Nat.cast_nonneg _
  by_contra neither
  obtain ⟨notBelow, notAbove⟩ := not_or.mp neither
  have far : (4 * unitsPerOne * q : ℚ) + 2 * spacingBelow exponent fraction ≤
      4 * unitsOf exponent fraction :=
    le_of_not_gt fun near ↦ notBelow (.of_strict some near (by linarith))
  have far' : (4 * unitsOf exponent fraction : ℚ) + 2 * spacing exponent ≤ 4 * unitsPerOne * r :=
    le_of_not_gt fun near ↦ notAbove (.of_strict some (by linarith) near)
  linarith

theorem lt_of_sixteen_digits (small : fraction < fractionCount) {step : ℚ}
    (fine : 10 ^ 16 * step ≤ 4 * unitsOf exponent fraction) :
    step < 2 * spacingBelow exponent fraction + 2 * spacing exponent := by
  have apart : (0 : ℚ) < spacing exponent := Nat.cast_pos.mpr (spacing_pos exponent)
  rcases unitsOf_narrow exponent small with ⟨same, narrow⟩ | ⟨half, narrow⟩
  · have narrow : (unitsOf exponent fraction : ℚ) ≤ 2 * 4503599627370496 * spacing exponent := by
      exact_mod_cast narrow
    rw [same]
    linarith
  · have narrow : (unitsOf exponent fraction : ℚ) = 4503599627370496 * spacing exponent := by
      exact_mod_cast narrow
    have half : (2 * spacingBelow exponent fraction : ℚ) = spacing exponent := by
      exact_mod_cast half
    linarith

section Found

variable (inRange : exponent < 2047) (small : fraction < fractionCount)
  (some : 0 < unitsOf exponent fraction)

include inRange small some

theorem isLeading : Decimal.IsLeading (4 * unitsOf exponent fraction) (4 * unitsPerOne)
    (Decimal.leadingOf (4 * unitsOf exponent fraction) (4 * unitsPerOne)) := by
  have quadruple {n k : ℕ} (some : 0 < n) (h : n < 2 ^ k) : (4 * n).log2 < k + 2 := by
    rw [Nat.log2_lt (by omega), Nat.pow_add]
    omega
  have units : unitsOf exponent fraction < 2 ^ (52 + exponent) := by
    have top := add_spacing_le exponent small
    have apart := spacing_pos exponent
    rw [Nat.pow_add]
    exact (by omega : unitsOf exponent fraction < fractionCount * 2 ^ exponent)
  have units := quadruple some units
  have one : unitsPerOne < 2 ^ (unitExponent + 1) := by
    unfold unitsPerOne
    generalize unitExponent = exponent
    exact Nat.pow_lt_pow_right (by decide) (Nat.lt_add_one exponent)
  have one := quadruple unitsPerOne_pos one
  have exponent' : unitExponent = 1074 := rfl
  exact Decimal.leadingOf_spec (Nat.mul_pos (by decide) some) quarter_pos (by omega)

theorem floorOf_bounds (wide : 0 < width) :
    10 ^ (width - 1) ≤ floorOf exponent fraction width ∧
      floorOf exponent fraction width + 1 ≤ 10 ^ width :=
  Decimal.floorOf_bounds quarter_pos wide (isLeading inRange small some)

/-- One of the decimals of seventeen digits next to a magnitude rounds to it. -/
theorem ofWidth?_seventeen : ofWidth? exponent fraction 17 ≠ none := by
  have digits := (floorOf_bounds inRange small some (by decide : 0 < 17)).1
  obtain ⟨below, above⟩ := Decimal.scaled_bounds quarter_pos (4 * unitsOf exponent fraction)
    (lastPlace exponent fraction 17)
  change (_ : ℚ) * (floorOf exponent fraction 17 * _) ≤ _ at below
  change (_ : ℚ) < _ * ((floorOf exponent fraction 17 + 1 : ℕ) * _) at above
  rw [Nat.cast_mul 4 unitsPerOne, Nat.cast_mul 4 (unitsOf _ _), Nat.cast_ofNat] at below above
  refine ofWidth?_ne_none (lt_of_lt_of_le (by decide) digits)
    (roundsTo_of_between some below above ?_)
  generalize floorOf exponent fraction 17 = floor at digits below
  have multiple (c : ℚ) : (4 * unitsPerOne * (c * 10 ^ lastPlace exponent fraction 17) : ℚ) =
      c * (4 * unitsPerOne * 10 ^ lastPlace exponent fraction 17) := by ring
  have positive : (0 : ℚ) < 4 * unitsPerOne * 10 ^ lastPlace exponent fraction 17 :=
    mul_pos (mul_pos (by norm_num) (Nat.cast_pos.mpr unitsPerOne_pos)) (by positivity)
  rw [multiple] at below
  rw [multiple, multiple, Nat.cast_add_one, add_one_mul]
  generalize (4 * unitsPerOne * 10 ^ lastPlace exponent fraction 17 : ℚ) = step at below positive ⊢
  have digits : (10 ^ 16 : ℚ) ≤ floor := by exact_mod_cast digits
  have fine := (mul_le_mul_of_nonneg_right digits positive.le).trans below
  exact add_lt_add_right (lt_of_sixteen_digits small fine) _

end Found

/-- The shortest decimal of a magnitude rounds to it. -/
theorem shortest_spec (inRange : exponent < 2047) (small : fraction < fractionCount)
    (some : 0 < unitsOf exponent fraction) :
    (shortest exponent fraction).IsFull ∧
      RoundsTo exponent fraction (shortest exponent fraction).value := by
  unfold shortest
  dsimp only
  split
  case h_1 d found =>
    obtain ⟨width, member, found⟩ := List.exists_of_findSome?_eq_some found
    have wide : 0 < width := by
      obtain ⟨k, -, rfl⟩ := List.mem_map.mp member
      exact Nat.succ_pos k
    obtain ⟨c, near, rounds, rfl⟩ := ofWidth?_found found
    have bounds := floorOf_bounds inRange small some wide
    generalize floorOf exponent fraction width = floor at near bounds
    refine ⟨Decimal.trimmed_isFull 17 (Decimal.ofRounded_isFull wide (by omega) (by omega)), ?_⟩
    rw [Decimal.trimmed_value, Decimal.ofRounded_value wide]
    exact rounds
  case h_2 missing =>
    have seventeen := List.findSome?_eq_none_iff.mp missing 17 (by decide)
    exact absurd seventeen (ofWidth?_seventeen inRange small some)

end Width

end Double

end CallSearch
