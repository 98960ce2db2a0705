import CallSearch.Calendar.Iso

namespace CallSearch

/-- Ten characters in the form of a date, with digits of some kind. -/
structure DateForm (digit : Char → Bool) where
  year : List Char
  month : List Char
  day : List Char
  length_year : year.length = 4
  length_month : month.length = 2
  length_day : day.length = 2
  digits : ∀ c ∈ year ++ month ++ day, digit c

namespace DateForm

variable {digit : Char → Bool} (form : DateForm digit) {c : Char} {rest : List Char}

def chars : List Char := form.year ++ '-' :: (form.month ++ '-' :: form.day)

def fields : Iso.Fields where
  year := Nat.ofDigitChars 10 form.year 0
  month := Nat.ofDigitChars 10 form.month 0
  day := Nat.ofDigitChars 10 form.day 0

def IsReal : Prop := IsDate form.fields.year form.fields.month form.fields.day

def isAscii : Bool := (form.year ++ form.month ++ form.day).all Text.isAsciiDigit

theorem length_chars : form.chars.length = 10 := by
  simp only [chars, List.length_append, List.length_cons, form.length_year, form.length_month,
    form.length_day]

theorem take_year : form.chars.take 4 = form.year := List.take_left' form.length_year

theorem take_month : (form.chars.drop 5).take 2 = form.month := by
  have parts : form.chars = (form.year ++ ['-']) ++ (form.month ++ '-' :: form.day) := by
    simp [chars]
  rw [parts, List.drop_left' (by simp [form.length_year]), List.take_left' form.length_month]

theorem drop_day : form.chars.drop 8 = form.day := by
  have parts : form.chars = (form.year ++ '-' :: (form.month ++ ['-'])) ++ form.day := by
    simp [chars]
  rw [parts, List.drop_left' (by simp [form.length_year, form.length_month])]

theorem digits_or_hyphen (inside : c ∈ form.chars) : digit c ∨ c = '-' := by
  have digits := form.digits
  simp only [chars, List.mem_append, List.mem_cons] at inside digits
  grind

theorem head?_month_ne (other : digit c = false) :
    ((form.month ++ rest).head? == some c) = false := by
  obtain ⟨first, tail, month⟩ := List.exists_cons_of_length_eq_add_one form.length_month
  have isDigit : digit first := by
    apply form.digits
    simp [month]
  have apart : first ≠ c := by
    intro same
    rw [same, other] at isDigit
    exact absurd isDigit Bool.false_ne_true
  simp [month, apart]

end DateForm

namespace Iso

variable {digit : Char → Bool} (form : DateForm digit) {cs rest : List Char} {width : Nat}

theorem takeDigits_append (length : cs.length = width) :
    takeDigits width (cs ++ rest) =
      if cs.all Text.isAsciiDigit then some (Nat.ofDigitChars 10 cs 0, rest) else none := by
  simp only [takeDigits, List.take_left' length, List.drop_left' length, length, true_and]

theorem readDate?_chars (noWeek : digit 'W' = false) (length : Nat) (rest : List Char) :
    readDate? length (form.chars ++ rest) = if form.isAscii then some form.fields else none := by
  have month : ∀ tail, ((form.month ++ tail).head? == some 'W') = false :=
    fun _ ↦ form.head?_month_ne noWeek
  simp only [readDate?, DateForm.chars, List.append_assoc, List.cons_append,
    takeDigits_append form.length_year, DateForm.isAscii, List.all_append]
  cases form.year.all Text.isAsciiDigit
  · simp
  · simp only [if_true, Option.bind_eq_bind, Option.bind_some, List.head?_cons, BEq.rfl,
      List.drop_one, List.tail_cons, month, Bool.false_eq_true, if_false,
      takeDigits_append form.length_month, Bool.true_and]
    cases form.month.all Text.isAsciiDigit
    · simp
    · simp only [if_true, Option.bind_some, List.head?_cons, BEq.rfl, List.tail_cons,
        takeDigits_append form.length_day, Bool.true_and]
      cases form.day.all Text.isAsciiDigit <;> simp [DateForm.fields]

theorem dateLength_chars (noWeek : digit 'W' = false) (rest : List Char) :
    dateLength (form.chars ++ rest) = 10 := by
  have long : (form.chars ++ rest).length ≠ 7 := by
    rw [List.length_append, form.length_chars]
    omega
  have hyphen : ((form.chars ++ rest)[4]? == some '-') = true := by
    simp [DateForm.chars, form.length_year]
  have week : ((form.chars ++ rest)[5]? == some 'W') = false := by
    rw [DateForm.chars, List.append_assoc, List.getElem?_append_right (by simp [form.length_year]),
      form.length_year, List.cons_append, List.getElem?_cons_succ, List.append_assoc,
      ← List.head?_eq_getElem?]
    exact form.head?_month_ne noWeek
  simp only [dateLength, if_neg long, hyphen, week, if_true, Bool.false_eq_true, if_false]

end Iso

end CallSearch
