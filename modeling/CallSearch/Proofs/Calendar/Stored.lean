import CallSearch.Proofs.Calendar.Written

namespace CallSearch

section Digits

variable {c : Char} {cs ds xs ys : List Char}

theorem lt_append_iff (length : cs.length = ds.length) :
    cs ++ xs < ds ++ ys ↔ cs < ds ∨ cs = ds ∧ xs < ys := by
  induction cs generalizing ds with
  | nil =>
    obtain rfl : ds = [] := List.length_eq_zero_iff.mp length.symm
    simp
  | cons c cs ih =>
    obtain ⟨d, ds, rfl⟩ := List.exists_cons_of_length_eq_add_one length.symm
    have shorter : cs.length = ds.length := by simpa using length
    rw [List.cons_append, List.cons_append, List.cons_lt_cons_iff, List.cons_lt_cons_iff,
      ih shorter, List.cons.injEq]
    tauto

theorem ofDigitChars_cons (c : Char) (cs : List Char) :
    Nat.ofDigitChars 10 (c :: cs) 0 =
      10 ^ cs.length * (c.toNat - 48) + Nat.ofDigitChars 10 cs 0 := by
  rw [Nat.ofDigitChars_cons, Nat.ofDigitChars_eq_ofDigitChars_zero, Nat.mul_zero, Nat.zero_add]
  rfl

theorem ofDigitChars_lt (digits : ∀ c ∈ cs, Text.isAsciiDigit c) :
    Nat.ofDigitChars 10 cs 0 < 10 ^ cs.length := by
  induction cs with
  | nil => simp
  | cons c cs ih =>
    rw [List.forall_mem_cons] at digits
    have digit := isAsciiDigit_iff.mp digits.1
    have rest := ih digits.2
    have most : 10 ^ cs.length * (c.toNat - 48) ≤ 10 ^ cs.length * 9 :=
      Nat.mul_le_mul_left _ (by omega)
    rw [ofDigitChars_cons, List.length_cons, Nat.pow_succ]
    omega

theorem lt_digits_iff (length : cs.length = ds.length) (digits : ∀ c ∈ cs, Text.isAsciiDigit c)
    (digits' : ∀ c ∈ ds, Text.isAsciiDigit c) :
    cs < ds ↔ Nat.ofDigitChars 10 cs 0 < Nat.ofDigitChars 10 ds 0 := by
  induction cs generalizing ds with
  | nil =>
    obtain rfl : ds = [] := List.length_eq_zero_iff.mp length.symm
    simp
  | cons c cs ih =>
    obtain ⟨d, ds, rfl⟩ := List.exists_cons_of_length_eq_add_one length.symm
    have shorter : cs.length = ds.length := by simpa using length
    rw [List.forall_mem_cons] at digits digits'
    have first := isAsciiDigit_iff.mp digits.1
    have first' := isAsciiDigit_iff.mp digits'.1
    have rest := ofDigitChars_lt digits.2
    have rest' := ofDigitChars_lt digits'.2
    have below : c < d ↔ c.toNat < d.toNat := Iff.rfl
    rw [List.cons_lt_cons_iff, ih shorter digits.2 digits'.2, below, ← Char.toNat_inj,
      ofDigitChars_cons, ofDigitChars_cons, ← shorter]
    rw [← shorter] at rest'
    rcases lt_trichotomy c.toNat d.toNat with less | same | greater
    · have more : 10 ^ cs.length * (c.toNat - 48 + 1) ≤ 10 ^ cs.length * (d.toNat - 48) :=
        Nat.mul_le_mul_left _ (by omega)
      rw [Nat.mul_succ] at more
      exact iff_of_true (.inl less) (by omega)
    · rw [same]
      simp
    · have more : 10 ^ cs.length * (d.toNat - 48 + 1) ≤ 10 ^ cs.length * (c.toNat - 48) :=
        Nat.mul_le_mul_left _ (by omega)
      rw [Nat.mul_succ] at more
      exact iff_of_false (by omega) (by omega)

end Digits

variable {width m n : Nat} {xs ys : List Char}

theorem lt_padded_iff (pos : 0 < width) (hm : m < 10 ^ width) (hn : n < 10 ^ width) :
    Date.padded width m ++ xs < Date.padded width n ++ ys ↔ m < n ∨ m = n ∧ xs < ys := by
  have long := Date.length_padded pos hm
  have long' := Date.length_padded pos hn
  have less : Date.padded width m < Date.padded width n ↔ m < n := by
    rw [lt_digits_iff (long.trans long'.symm) (fun c ↦ Date.isAsciiDigit_of_mem_padded)
      (fun c ↦ Date.isAsciiDigit_of_mem_padded), Date.ofDigitChars_padded, Date.ofDigitChars_padded]
  have same : Date.padded width m = Date.padded width n ↔ m = n := by
    constructor
    · intro written
      have read := congrArg (Nat.ofDigitChars 10 · 0) written
      simpa only [Date.ofDigitChars_padded] using read
    · rintro rfl
      rfl
  rw [lt_append_iff (long.trans long'.symm), less, same]

theorem Date.lt_isoChars_iff {d e : Date} :
    d.isoChars ++ xs < e.isoChars ++ ys ↔ d < e ∨ d = e ∧ xs < ys := by
  obtain ⟨year, month, day⟩ := d.fields_lt
  obtain ⟨year', month', day'⟩ := e.fields_lt
  have same : d = e ↔ d.year = e.year ∧ d.month = e.month ∧ d.day = e.day := by
    cases d
    cases e
    simp
  simp only [isoChars, List.append_assoc, List.cons_append,
    lt_padded_iff (by decide : 0 < 4) year year', List.cons_lt_cons_self,
    lt_padded_iff (by decide : 0 < 2) month month', lt_padded_iff (by decide : 0 < 2) day day',
    lt_iff_fields, same]
  tauto

namespace Timestamp

variable {s t : Timestamp}

theorem lt_clockChars_iff :
    s.clockChars ++ '.' :: Date.padded 6 s.micro.val <
        t.clockChars ++ '.' :: Date.padded 6 t.micro.val ↔
      s.microOfDay < t.microOfDay := by
  have hour := s.hour.isLt
  have hour' := t.hour.isLt
  have minute := s.minute.isLt
  have minute' := t.minute.isLt
  have second := s.second.isLt
  have second' := t.second.isLt
  have micro := s.micro.isLt
  have micro' := t.micro.isLt
  have last : Date.padded 6 s.micro.val < Date.padded 6 t.micro.val ↔ s.micro.val < t.micro.val := by
    simpa using @lt_padded_iff 6 _ _ [] [] (by decide) micro micro'
  simp only [clockChars, List.append_assoc, List.cons_append, List.cons_lt_cons_self, last,
    lt_padded_iff (by decide : 0 < 2) (hour.trans (by decide)) (hour'.trans (by decide)),
    lt_padded_iff (by decide : 0 < 2) (minute.trans (by decide)) (minute'.trans (by decide)),
    lt_padded_iff (by decide : 0 < 2) (second.trans (by decide)) (second'.trans (by decide)),
    microOfDay]
  omega

/-- Stored times are in the order of the times that they are written for. -/
theorem storeText_lt_iff : s.storeText < t.storeText ↔ s.key < t.key := by
  rw [String.lt_iff, storeText, storeText, String.toList_ofList, String.toList_ofList,
    Date.lt_isoChars_iff, List.cons_lt_cons_self, lt_clockChars_iff, key_lt_iff]

end Timestamp

end CallSearch
