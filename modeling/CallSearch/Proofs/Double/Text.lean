import CallSearch.Proofs.Double.Shortest
import CallSearch.Proofs.Store.Cell

namespace CallSearch

def Literal.magnitude (literal : Literal) : ℚ := literal.digits * 10 ^ literal.scale

/-- Whether a text is a number, and which one, with or without a sign in front. -/
def ReadsAs (cs : List Char) (q : ℚ) : Prop :=
  ∀ negative : Bool, ∃ literal, Literal.scan ((if negative then ['-'] else []) ++ cs) =
      some (literal, []) ∧ literal.negative = negative ∧ literal.magnitude = q

section Scan

variable {ds fs exponent : List Char} {n : ℤ}

theorem takeSign_negative (negative : Bool) {rest : List Char}
    (free : ∀ c ∈ rest.head?, c ≠ '+' ∧ c ≠ '-') :
    Literal.takeSign ((if negative then ['-'] else []) ++ rest) = (negative, rest) := by
  cases negative with
  | true => rfl
  | false =>
    cases rest with
    | nil => rfl
    | cons c tail =>
      obtain ⟨plus, minus⟩ := free c rfl
      simp [Literal.takeSign, plus, minus]

theorem takeSign_digits (negative : Bool) (digits : ∀ c ∈ ds, Text.isAsciiDigit c) (any : ds ≠ [])
    (rest : List Char) :
    Literal.takeSign ((if negative then ['-'] else []) ++ (ds ++ rest)) = (negative, ds ++ rest) := by
  refine takeSign_negative negative ?_
  obtain ⟨d, ds, rfl⟩ := List.exists_cons_of_ne_nil any
  intro c hc
  cases hc
  have digit := digits d List.mem_cons_self
  constructor <;> rintro rfl <;> exact absurd digit (by decide)

theorem readsAs_whole (digits : ∀ c ∈ ds, Text.isAsciiDigit c) (any : ds ≠ [])
    (power : Exponent Text.isAsciiDigit exponent)
    (value : Literal.takeExponent exponent = (n, [])) :
    ReadsAs (ds ++ exponent) (Nat.ofDigitChars 10 ds 0 * 10 ^ n) := by
  intro negative
  obtain ⟨taken, dropped⟩ := span_append digits (not_digit_of_exponent power)
  refine ⟨⟨negative, Nat.ofDigitChars 10 ds 0, n⟩, ?_, rfl, rfl⟩
  simp [Literal.scan, takeSign_digits negative digits any, taken, dropped,
    takeFraction_exponent power, value, any]

theorem readsAs_point (digits : ∀ c ∈ ds, Text.isAsciiDigit c) (any : ds ≠ [])
    (fraction : ∀ c ∈ fs, Text.isAsciiDigit c) (power : Exponent Text.isAsciiDigit exponent)
    (value : Literal.takeExponent exponent = (n, [])) :
    ReadsAs (ds ++ '.' :: (fs ++ exponent))
      (Nat.ofDigitChars 10 (ds ++ fs) 0 * 10 ^ (n - fs.length)) := by
  intro negative
  have boundary : ∀ c ∈ ('.' :: (fs ++ exponent)).head?, Text.isAsciiDigit c = false := by
    intro c hc
    cases hc
    decide
  obtain ⟨taken, dropped⟩ := span_append digits boundary
  refine ⟨⟨negative, Nat.ofDigitChars 10 (ds ++ fs) 0, n - fs.length⟩, ?_, rfl, rfl⟩
  simp [Literal.scan, takeSign_digits negative digits any, taken, dropped,
    takeFraction_point fraction power, value, any]

end Scan

namespace Decimal

section Exponents

theorem isAsciiDigit_exponentChars (k : ℕ) : ∀ c ∈ exponentChars k, Text.isAsciiDigit c := by
  intro c hc
  unfold exponentChars at hc
  split at hc
  · rcases List.mem_cons.mp hc with rfl | digit
    · decide
    · exact isAsciiDigit_of_mem_toDigits digit
  · exact isAsciiDigit_of_mem_toDigits hc

theorem exponentChars_ne_nil (k : ℕ) : exponentChars k ≠ [] := by
  unfold exponentChars
  split
  · exact List.cons_ne_nil _ _
  · exact Nat.toDigits_ne_nil

theorem ofDigitChars_exponentChars (k : ℕ) : Nat.ofDigitChars 10 (exponentChars k) 0 = k := by
  unfold exponentChars
  split
  · rw [Nat.ofDigitChars_cons]
    exact Nat.ofDigitChars_ten_toDigits
  · exact Nat.ofDigitChars_ten_toDigits

def exponentText (leading : ℤ) : List Char :=
  'e' :: ([if leading < 0 then '-' else '+'] ++ exponentChars leading.natAbs)

theorem exponent_exponentText (leading : ℤ) : Exponent Text.isAsciiDigit (exponentText leading) := by
  refine .some (.inl rfl) ?_ (isAsciiDigit_exponentChars _) (exponentChars_ne_nil _)
  split
  · exact .minus
  · exact .plus

theorem takeExponent_exponentText (leading : ℤ) :
    Literal.takeExponent (exponentText leading) = (leading, []) := by
  obtain ⟨taken, dropped⟩ : (exponentChars leading.natAbs ++ []).takeWhile Text.isAsciiDigit =
        exponentChars leading.natAbs ∧
      (exponentChars leading.natAbs ++ []).dropWhile Text.isAsciiDigit = [] :=
    span_append (isAsciiDigit_exponentChars _) (by simp)
  rw [List.append_nil] at taken dropped
  have size : (if leading < 0 then -(leading.natAbs : ℤ) else leading.natAbs) = leading := by omega
  unfold exponentText
  by_cases negative : leading < 0
  · rw [if_pos negative] at size ⊢
    simpa [Literal.takeExponent, Literal.takeSign, taken, dropped, exponentChars_ne_nil,
      ofDigitChars_exponentChars] using size
  · rw [if_neg negative] at size ⊢
    simpa [Literal.takeExponent, Literal.takeSign, taken, dropped, exponentChars_ne_nil,
      ofDigitChars_exponentChars] using size

end Exponents

variable {d : Decimal}

theorem IsFull.length_chars (full : d.IsFull) : d.chars.length = d.width := by
  have most : d.chars.length ≤ d.width :=
    (Nat.length_toDigits_le_iff (by decide) full.wide).mpr full.high
  have some : 0 < d.chars.length := Nat.length_toDigits_pos
  by_contra other
  have fewer := (Nat.length_toDigits_le_iff (by decide) (by omega : 0 < d.width - 1)).mp
    (by omega : d.chars.length ≤ d.width - 1)
  exact absurd full.low fewer.not_ge

theorem isAsciiDigit_chars (d : Decimal) : ∀ c ∈ d.chars, Text.isAsciiDigit c :=
  fun _ hc ↦ isAsciiDigit_of_mem_toDigits hc

theorem ofDigitChars_zeros (cs : List Char) (k : ℕ) (n : ℤ) :
    (Nat.ofDigitChars 10 (cs ++ List.replicate k '0') 0 : ℚ) * 10 ^ n =
      Nat.ofDigitChars 10 cs 0 * 10 ^ (n + k) := by
  rw [Nat.ofDigitChars_append, Nat.ofDigitChars_replicate_zero, zpow_add₀ (by norm_num),
    zpow_natCast, Nat.cast_mul, Nat.cast_pow, Nat.cast_ofNat]
  ring

theorem isAsciiDigit_zeros (k : ℕ) : ∀ c ∈ List.replicate k '0', Text.isAsciiDigit c := by
  intro c hc
  rw [List.eq_of_mem_replicate hc]
  decide

theorem IsFull.readsAs_mantissa (full : d.IsFull) (point : Bool) :
    ReadsAs ((match d.chars with
      | [c] => if point then [c, '.', '0'] else [c]
      | c :: rest => c :: '.' :: rest
      | [] => []) ++ exponentText d.leading) d.value := by
  have length := full.length_chars
  have digits := d.isAsciiDigit_chars
  have value : Nat.ofDigitChars 10 d.chars 0 = d.digits := Nat.ofDigitChars_ten_toDigits
  have power := exponent_exponentText d.leading
  have exponent := takeExponent_exponentText d.leading
  cases chars : d.chars with
  | nil => exact absurd chars Nat.toDigits_ne_nil
  | cons c rest =>
    rw [chars, List.length_cons] at length
    rw [chars] at digits value
    rw [List.forall_mem_cons] at digits
    have first : ∀ c' ∈ [c], Text.isAsciiDigit c' := List.forall_mem_singleton.mpr digits.1
    cases rest with
    | nil =>
      have place : d.leading + 1 - (d.width : ℤ) = d.leading := by
        rw [← length]
        simp
      rw [Decimal.value, place, ← value]
      cases point with
      | true =>
        have read := readsAs_point first (List.cons_ne_nil _ _) (isAsciiDigit_zeros 1) power exponent
        rw [ofDigitChars_zeros, List.length_replicate, Nat.cast_one, sub_add_cancel] at read
        exact read
      | false => exact readsAs_whole first (List.cons_ne_nil _ _) power exponent
    | cons c' rest =>
      have read := readsAs_point first (List.cons_ne_nil _ _) digits.2 power exponent
      have place : d.leading - ((c' :: rest).length : ℤ) = d.leading + 1 - d.width := by omega
      rw [place] at read
      rw [Decimal.value, ← value]
      exact read

theorem IsFull.readsAs_write (full : d.IsFull) (layout : Layout) :
    ReadsAs (d.write layout) d.value := by
  have length := full.length_chars
  have digits := d.isAsciiDigit_chars
  have value : Nat.ofDigitChars 10 d.chars 0 = d.digits := Nat.ofDigitChars_ten_toDigits
  have noExponent : Literal.takeExponent [] = (0, []) := rfl
  unfold write
  dsimp only
  by_cases positional : layout.positionalFrom ≤ d.leading ∧ d.leading < layout.positionalBelow
  · rw [if_pos positional]
    split_ifs with small few
    · have read := @readsAs_point ['0'] _ _ _ (isAsciiDigit_zeros 1) (List.cons_ne_nil _ _)
        (List.forall_mem_append.mpr ⟨isAsciiDigit_zeros ((-d.leading).toNat - 1), digits⟩)
        .none noExponent
      have same : Nat.ofDigitChars 10
          (['0'] ++ (List.replicate ((-d.leading).toNat - 1) '0' ++ d.chars)) 0 = d.digits := by
        rw [Nat.ofDigitChars_append, Nat.ofDigitChars_append]
        change Nat.ofDigitChars 10 _ (Nat.ofDigitChars 10 _ 0) = _
        rw [Nat.ofDigitChars_replicate_zero, Nat.mul_zero, value]
      have place : (0 : ℤ) - (List.replicate ((-d.leading).toNat - 1) '0' ++ d.chars).length =
          d.leading + 1 - d.width := by
        rw [List.length_append, List.length_replicate, length]
        omega
      rw [same, place, List.append_nil] at read
      exact read
    · have read := readsAs_point (List.forall_mem_append.mpr
          ⟨digits, isAsciiDigit_zeros (d.leading.toNat + 1 - d.chars.length)⟩)
        (List.append_ne_nil_of_left_ne_nil Nat.toDigits_ne_nil _) (isAsciiDigit_zeros 1)
        .none noExponent
      have place : (0 : ℤ) - (List.replicate 1 '0').length +
          (d.leading.toNat + 1 - d.chars.length + 1 : ℕ) = d.leading + 1 - d.width := by
        rw [List.length_replicate]
        omega
      rw [List.append_assoc d.chars _ (List.replicate 1 '0'), List.replicate_append_replicate,
        ofDigitChars_zeros, value, place] at read
      exact read
    · have some : d.chars.take (d.leading.toNat + 1) ≠ [] := by
        rw [Ne, List.take_eq_nil_iff]
        exact not_or.mpr ⟨Nat.succ_ne_zero _, Nat.toDigits_ne_nil⟩
      have read := readsAs_point (fun c hc ↦ digits c (List.mem_of_mem_take hc)) some
        (fun c (hc : c ∈ d.chars.drop (d.leading.toNat + 1)) ↦ digits c (List.mem_of_mem_drop hc))
        .none noExponent
      have place : (0 : ℤ) - (d.chars.drop (d.leading.toNat + 1)).length =
          d.leading + 1 - d.width := by
        rw [List.length_drop]
        omega
      rw [List.take_append_drop, value, place, List.append_nil] at read
      exact read
  · rw [if_neg positional]
    exact full.readsAs_mantissa layout.pointInMantissa

end Decimal

namespace Double

theorem units_zero_iff {exponent fraction : ℕ} :
    unitsOf exponent fraction = 0 ↔ exponent = 0 ∧ fraction = 0 := by
  cases exponent with
  | zero => simp [unitsOf]
  | succ above =>
    refine iff_of_false (Nat.mul_pos ?_ (Nat.two_pow_pos above)).ne' (by simp)
    exact Nat.add_pos_left (by decide) fraction

theorem roundsTo_zero : RoundsTo 0 0 0 := by
  have interval : roundingInterval 0 0 = (0, 0, 2) := rfl
  unfold RoundsTo
  rw [interval]
  dsimp only
  rw [if_pos rfl, mul_zero]
  norm_num

/-- In the text of a document a finite number is read with its sign, and as a number that rounds
to it. -/
theorem scan_documentChars (negative : Bool) (exponent : Fin 2047) (fraction : Fin fractionCount) :
    ∃ literal, Literal.scan (documentChars (.finite negative exponent fraction)) =
        some (literal, []) ∧
      literal.negative = negative ∧ RoundsTo exponent fraction literal.magnitude := by
  unfold documentChars writeWith
  dsimp only
  by_cases zero : exponent.val = 0 ∧ fraction.val = 0
  · rw [if_pos zero, zero.1, zero.2]
    cases negative <;> exact ⟨⟨_, 0, -1⟩, rfl, rfl, by simpa [Literal.magnitude] using roundsTo_zero⟩
  · rw [if_neg zero]
    obtain ⟨full, rounds⟩ := shortest_spec exponent.isLt fraction.isLt
      (Nat.pos_of_ne_zero (mt units_zero_iff.mp zero))
    obtain ⟨literal, scanned, sign, magnitude⟩ := full.readsAs_write documentLayout negative
    exact ⟨literal, scanned, sign, magnitude ▸ rounds⟩

theorem scan_documentChars_infinite (negative : Bool) :
    Literal.scan (documentChars (.infinite negative)) = none := by cases negative <;> rfl

/-- No two floating point numbers have the same text in a document. -/
theorem documentChars_injective : Function.Injective documentChars := by
  intro x y same
  cases x with
  | nan =>
    cases y with
    | nan => rfl
    | infinite negative => cases negative <;> exact absurd same (by decide)
    | finite negative exponent fraction =>
      obtain ⟨literal, scanned, -⟩ := scan_documentChars negative exponent fraction
      rw [← same] at scanned
      cases scanned
  | infinite negative =>
    cases y with
    | nan => cases negative <;> exact absurd same (by decide)
    | infinite negative' =>
      cases negative <;> cases negative' <;> first | rfl | exact absurd same (by decide)
    | finite negative' exponent fraction =>
      obtain ⟨literal, scanned, -⟩ := scan_documentChars negative' exponent fraction
      rw [← same, scan_documentChars_infinite] at scanned
      cases scanned
  | finite negative exponent fraction =>
    obtain ⟨literal, scanned, rfl, rounds⟩ := scan_documentChars negative exponent fraction
    rw [same] at scanned
    cases y with
    | nan => cases scanned
    | infinite negative' =>
      rw [scan_documentChars_infinite] at scanned
      cases scanned
    | finite negative' exponent' fraction' =>
      obtain ⟨literal', scanned', rfl, rounds'⟩ := scan_documentChars negative' exponent' fraction'
      rw [scanned'] at scanned
      cases scanned
      obtain ⟨sameExponent, sameFraction⟩ := rounds.unique fraction.isLt fraction'.isLt rounds'
      rw [Fin.ext sameExponent, Fin.ext sameFraction]

theorem mem_documentChars (x : Double) : ∃ c ∈ x.documentChars, c ∈ ['.', 'e', 'N', 'I'] := by
  cases x with
  | nan => exact ⟨'N', by decide, by decide⟩
  | infinite negative => exact ⟨'I', by cases negative <;> decide, by decide⟩
  | finite negative exponent fraction =>
    obtain ⟨c, inside, special⟩ := mem_writeWith documentLayout shortest negative exponent fraction
    exact ⟨c, inside, List.mem_append_left ['N', 'I'] special⟩

theorem documentChars_ne_intChars (x : Double) (n : ℤ) : x.documentChars ≠ Json.intChars n := by
  intro same
  obtain ⟨c, inside, special⟩ := x.mem_documentChars
  rw [same] at inside
  have plain := mem_intChars inside
  revert plain
  simp only [List.mem_cons, List.not_mem_nil, or_false] at special
  rcases special with rfl | rfl | rfl | rfl <;> decide

end Double

end CallSearch
