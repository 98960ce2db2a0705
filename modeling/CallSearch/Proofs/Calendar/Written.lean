import Mathlib.Algebra.Group.Nat.Defs
import CallSearch.Calendar.Iso
import CallSearch.Proofs.Calendar.Form
import CallSearch.Proofs.Calendar.Order
import CallSearch.Proofs.Text

namespace CallSearch

namespace Date

variable {d : Date} {width n : Nat}

theorem length_padded (pos : 0 < width) (fits : n < 10 ^ width) :
    (padded width n).length = width := by
  have : (Nat.toDigits 10 n).length ≤ width :=
    (Nat.length_toDigits_le_iff (by decide) pos).mpr fits
  simp only [padded, List.length_append, List.length_replicate]
  omega

theorem isAsciiDigit_of_mem_padded {c : Char} (hc : c ∈ padded width n) : Text.isAsciiDigit c := by
  rcases List.mem_append.mp hc with zero | digit
  · rw [List.eq_of_mem_replicate zero]
    decide
  · have : c.isDigit := Nat.isDigit_of_mem_toDigits (by decide) (by decide) digit
    exact this

theorem ofDigitChars_padded : Nat.ofDigitChars 10 (padded width n) 0 = n := by
  rw [padded, Nat.ofDigitChars_append, Nat.ofDigitChars_replicate_zero, Nat.mul_zero,
    Nat.ofDigitChars_ten_toDigits]

theorem fields_lt (d : Date) : d.year < 10 ^ 4 ∧ d.month < 10 ^ 2 ∧ d.day < 10 ^ 2 := by
  obtain ⟨-, year_le, -, month_le, -, day_le⟩ := d.isDate
  have := (daysInMonth_bounds d.year d.month).2
  omega

def form (d : Date) : DateForm Text.isAsciiDigit where
  year := padded 4 d.year
  month := padded 2 d.month
  day := padded 2 d.day
  length_year := length_padded (by decide) d.fields_lt.1
  length_month := length_padded (by decide) d.fields_lt.2.1
  length_day := length_padded (by decide) d.fields_lt.2.2
  digits := by
    intro c inside
    simp only [List.mem_append] at inside
    obtain (inside | inside) | inside := inside
    all_goals exact isAsciiDigit_of_mem_padded inside

theorem chars_form : d.form.chars = d.isoChars := rfl

theorem fields_form : d.form.fields = ⟨d.year, d.month, d.day⟩ := by
  simp only [DateForm.fields, form, ofDigitChars_padded]

theorem isAscii_form : d.form.isAscii := List.all_eq_true.mpr d.form.digits

theorem mem_isoChars {c : Char} (hc : c ∈ d.isoChars) : Text.isAsciiDigit c ∨ c = '-' :=
  d.form.digits_or_hyphen hc

theorem length_isoChars : d.isoChars.length = 10 := d.form.length_chars

theorem isoChars_quiet {c : Char} (hc : c ∈ d.isoChars) :
    Text.isBlank c = false ∧ c.toNat < 128 ∧ c.toLower = c ∧ c ≠ ',' := by
  rcases mem_isoChars hc with digit | rfl
  · obtain ⟨low, high⟩ := isAsciiDigit_iff.mp digit
    exact of_toNat
      (fun c ↦ Text.isBlank c = false ∧ c.toNat < 128 ∧ c.toLower = c ∧ c ≠ ',') 48 58
      (by decide) low high
  · decide

theorem length_iso (d : Date) : d.iso.length = 10 := by
  rw [iso, String.length_ofList, length_isoChars]

theorem strip_iso : Text.strip d.iso = d.iso :=
  Text.strip_ofList fun _ hc ↦ (isoChars_quiet hc).1

theorem lower_iso : Text.lower d.iso = d.iso :=
  Text.lower_ofList fun _ hc ↦ ⟨(isoChars_quiet hc).2.1, (isoChars_quiet hc).2.2.1⟩

theorem isBlankText_iso : Text.isBlankText d.iso = false := by
  rw [Text.isBlankText, iso, String.toList_ofList, List.all_eq_false]
  obtain ⟨c, hc⟩ := List.exists_mem_of_length_pos (l := d.isoChars)
    (by rw [length_isoChars]; decide)
  exact ⟨c, hc, by simp [(isoChars_quiet hc).1]⟩

theorem make_fields : make d.year d.month d.day = .ok d := by
  rw [make, dif_pos d.isDate]

end Date

namespace Iso

variable {d : Date}

theorem readDate?_isoChars (length : Nat) (rest : List Char) :
    readDate? length (d.isoChars ++ rest) = some ⟨d.year, d.month, d.day⟩ := by
  rw [← Date.chars_form, readDate?_chars d.form (by decide), if_pos Date.isAscii_form,
    Date.fields_form]

theorem date_iso : date d.iso = .ok d := by
  have size : d.iso.utf8ByteSize = 10 := by
    refine (Text.utf8ByteSize_ofList fun c hc ↦ ?_).trans Date.length_isoChars
    exact (Date.isoChars_quiet hc).2.1
  have read : readDate? 10 d.iso.toList = some ⟨d.year, d.month, d.day⟩ := by
    rw [Date.iso, String.toList_ofList, ← List.append_nil d.isoChars, readDate?_isoChars]
  rw [date, size, read]
  exact Date.make_fields

theorem dateLength_isoChars (rest : List Char) : dateLength (d.isoChars ++ rest) = 10 :=
  dateLength_chars d.form (by decide) rest

theorem timestamp_iso {text : String} {c : Char} {time : List Char} {clock : Clock}
    (chars : text.toList = c :: time) (read : readTime? time = some (clock, none)) :
    timestamp (d.iso ++ text) =
      Timestamp.make d clock.hour clock.minute clock.second clock.micro := by
  rw [timestamp, String.toList_append, Date.iso, String.toList_ofList, chars, dateLength_isoChars,
    readDate?_isoChars, List.drop_left' Date.length_isoChars]
  simp only [read, Date.make_fields]
  rfl

end Iso

end CallSearch
