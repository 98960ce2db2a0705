import Mathlib.Data.List.Basic
import CallSearch.Json.Kind
import CallSearch.Proofs.Calendar
import CallSearch.Proofs.Calendar.Form
import CallSearch.Proofs.Double.Reader
import CallSearch.Proofs.Outcome

namespace CallSearch

section Calendar

variable {year month day : Nat} {d : Date}

theorem Date.isDate_of_make (made : make year month day = .ok d) : IsDate year month day := by
  by_contra unreal
  rw [make, dif_neg unreal] at made
  split at made
  · cases made
  · split at made <;> cases made

theorem Date.isDate_of_bind {α : Type} {f : Date → Except CalendarError α} {a : α}
    (made : make year month day >>= f = .ok a) : IsDate year month day := by
  obtain ⟨d, made, -⟩ := ok_of_bind made
  exact isDate_of_make made

theorem Date.isSome_of?_iff : (of? year month day).isSome ↔ IsDate year month day := by
  rw [← not_iff_not, Option.not_isSome_iff_eq_none, of?_eq_none_iff]

theorem Iso.isDate_of_timestamp {s : String} {t : Timestamp} (read : timestamp s = .ok t) :
    ∃ fields, readDate? (dateLength s.toList) s.toList = some fields ∧
      IsDate fields.year fields.month fields.day := by
  unfold timestamp at read
  cases begins : readDate? (dateLength s.toList) s.toList with
  | none =>
    simp only [begins] at read
    cases read
  | some fields =>
    simp only [begins] at read
    refine ⟨fields, rfl, ?_⟩
    split at read
    · cases read
    · exact Date.isDate_of_bind read
    · split at read
      · split at read
        · cases read
        · exact Date.isDate_of_bind read
      · exact Date.isDate_of_bind read

end Calendar

namespace Text

variable {c : Char} {cs : List Char} {digit : Char → Bool}

theorem digitValue?_ascii (ascii : isAsciiDigit c) : digitValue? c = some (c.toNat - 48) := by
  have code := isAsciiDigit_iff.mp ascii
  have bounds : '0' ≤ c ∧ c ≤ '9' := by simpa [isAsciiDigit] using ascii
  rw [digitValue?, if_pos (by omega), if_pos bounds]

theorem isDigit_of_ascii (ascii : isAsciiDigit c) : isDigit c := by
  rw [isDigit, digitValue?_ascii ascii, Option.isSome_some]

theorem digitsValue?_ascii (ascii : cs.all isAsciiDigit) :
    digitsValue? cs = some (Nat.ofDigitChars 10 cs 0) := by
  suffices ∀ total, cs.foldl (fun total? c ↦ do
      let total ← total?
      let digit ← digitValue? c
      return total * 10 + digit) (some total) = some (Nat.ofDigitChars 10 cs total) from this 0
  induction cs with
  | nil =>
    intro total
    rfl
  | cons c rest ih =>
    intro total
    rw [List.all_cons, Bool.and_eq_true] at ascii
    rw [List.foldl_cons, Nat.ofDigitChars_cons, ← ih ascii.2]
    simp only [digitValue?_ascii ascii.1, Option.bind_eq_bind, Option.bind_some, Nat.mul_comm]
    rfl

theorem exists_form (shape : hasDateShape cs) : ∃ form : DateForm isDigit, form.chars = cs := by
  simp only [hasDateShape, Bool.and_eq_true, decide_eq_true_eq] at shape
  obtain ⟨length, each⟩ := shape
  match cs, length with
  | [y₁, y₂, y₃, y₄, first, m₁, m₂, second, d₁, d₂], _ =>
    obtain ⟨year, hyphen, month, hyphen', day⟩ :
        (isDigit y₁ ∧ isDigit y₂ ∧ isDigit y₃ ∧ isDigit y₄) ∧ first = '-' ∧
          (isDigit m₁ ∧ isDigit m₂) ∧ second = '-' ∧ isDigit d₁ ∧ isDigit d₂ := by
      simpa [and_assoc] using each
    refine ⟨⟨[y₁, y₂, y₃, y₄], [m₁, m₂], [d₁, d₂], rfl, rfl, rfl, ?_⟩, ?_⟩
    · simp [year, month, day]
    · rw [hyphen, hyphen']
      rfl

theorem hasDateShape_chars (form : DateForm digit) (digits : ∀ c, digit c → isDigit c) :
    hasDateShape form.chars := by
  have each : ∀ c ∈ form.year ++ form.month ++ form.day, isDigit c :=
    fun c inside ↦ digits c (form.digits c inside)
  obtain ⟨y₁, y₂, y₃, y₄, year⟩ := List.length_eq_four.mp form.length_year
  obtain ⟨m₁, m₂, month⟩ := List.length_eq_two.mp form.length_month
  obtain ⟨d₁, d₂, day⟩ := List.length_eq_two.mp form.length_day
  simp only [year, month, day, List.cons_append, List.nil_append, List.forall_mem_cons] at each
  simp [hasDateShape, DateForm.chars, year, month, day, each]

theorem namedDate?_chars (form : DateForm digit) (ascii : form.isAscii) :
    (namedDate? form.chars).isSome ↔ form.IsReal := by
  simp only [DateForm.isAscii, List.all_append, Bool.and_eq_true] at ascii
  obtain ⟨⟨year, month⟩, day⟩ := ascii
  have plain (early : Bool) :
      (if early then [form.day.headD '0'] else form.day).all isAsciiDigit := by
    obtain ⟨first, second, written⟩ := List.length_eq_two.mp form.length_day
    rw [written, List.all_cons, Bool.and_eq_true] at day
    cases early
    · simpa [written] using day
    · simpa [written] using day.1
  simp only [namedDate?, form.take_year, form.take_month, form.drop_day, month, plain,
    digitsValue?_ascii year, digitsValue?_ascii month, digitsValue?_ascii day, Bool.and_self,
    if_true, Option.bind_eq_bind, Option.bind_some]
  exact Date.isSome_of?_iff

theorem withOffsets_append (s s' : String) :
    withOffsets (s ++ s') = withOffsets s ++ withOffsets s' := by
  simp only [withOffsets, String.toList_append, List.flatMap_append, String.ofList_append]

theorem withOffsets_ofList (plain : ∀ c ∈ cs, c ≠ 'Z') :
    withOffsets (String.ofList cs) = String.ofList cs := by
  have kept : cs.flatMap (fun c ↦ if c == 'Z' then "+00:00".toList else [c]) = cs := by
    induction cs with
    | nil => rfl
    | cons c rest ih =>
      rw [List.forall_mem_cons] at plain
      rw [List.flatMap_cons, ih plain.2]
      simp [plain.1]
  have text : (String.ofList cs).toList = cs := String.toList_ofList
  rw [withOffsets, text, kept]

theorem exists_withOffsets (form : DateForm isDigit) (rest : List Char) :
    ∃ offsets, (withOffsets (String.ofList (form.chars ++ rest))).toList =
      form.chars ++ offsets := by
  have plain : ∀ c ∈ form.chars, c ≠ 'Z' := by
    intro c inside same
    have other : isDigit c = false ∧ c ≠ '-' := by
      rw [same]
      decide
    have digit := form.digits_or_hyphen inside
    simp [other] at digit
  refine ⟨(withOffsets (String.ofList rest)).toList, ?_⟩
  rw [String.ofList_append, withOffsets_append, withOffsets_ofList plain, String.toList_append,
    String.toList_ofList]

/-- Reading a text with its time finds no date that its first ten characters do not name. -/
theorem looksLikeDate_eq (s : String) :
    looksLikeDate s =
      (hasDateShape (s.toList.take 10) && (namedDate? (s.toList.take 10)).isSome) := by
  cases shape : hasDateShape (s.toList.take 10) with
  | false => simp only [looksLikeDate, shape, Bool.false_and]
  | true =>
    obtain ⟨form, begins⟩ := exists_form shape
    have text : s = String.ofList (form.chars ++ s.toList.drop 10) := by
      rw [begins, List.take_append_drop, String.ofList_toList]
    obtain ⟨offsets, replaced⟩ := exists_withOffsets form (s.toList.drop 10)
    rw [← text] at replaced
    -- The replaced text begins with the same ten characters, and a date is read from no others.
    have named (read : (Iso.timestamp (withOffsets s)).toOption.isSome) :
        (namedDate? (s.toList.take 10)).isSome := by
      cases timed : Iso.timestamp (withOffsets s) with
      | error e =>
        rw [timed] at read
        cases read
      | ok t =>
        obtain ⟨fields, begun, real⟩ := Iso.isDate_of_timestamp timed
        rw [replaced, Iso.readDate?_chars form (by decide)] at begun
        split at begun
        · next ascii =>
          cases begun
          rw [← begins]
          exact (namedDate?_chars form ascii).mpr real
        · cases begun
    simp only [looksLikeDate, shape, Bool.true_and]
    exact Bool.or_eq_right_iff_imp.mpr named

/-- Only the first ten characters of a text decide whether it is a date. If they have the form of a
date in digits of ASCII, it is one exactly if they name a day of the calendar. -/
theorem looksLikeDate_leading :
    (∀ s s' : String, s.toList.take 10 = s'.toList.take 10 → looksLikeDate s = looksLikeDate s') ∧
    ∀ (s : String) (form : DateForm isAsciiDigit), s.toList.take 10 = form.chars →
      (looksLikeDate s ↔ form.IsReal) := by
  constructor
  · intro s s' same
    rw [looksLikeDate_eq, looksLikeDate_eq, same]
  · intro s form begins
    have shape : hasDateShape form.chars := hasDateShape_chars form fun _ ↦ isDigit_of_ascii
    rw [looksLikeDate_eq, begins, shape, Bool.true_and]
    exact namedDate?_chars form (List.all_eq_true.mpr form.digits)

def lastOfFebruary : DateForm isAsciiDigit :=
  ⟨['2', '0', '2', '4'], ['0', '2'], ['2', '9'], rfl, rfl, rfl, List.all_eq_true.mp (by decide)⟩

/-- The leap day is a date also before a time that no clock shows. -/
theorem looksLikeDate_lastOfFebruary :
    "2024-02-29T25:61Z".toList.take 10 = "2024-02-29".toList.take 10 ∧
      looksLikeDate "2024-02-29T25:61Z" = looksLikeDate "2024-02-29" ∧
      "2024-02-29T25:61Z".toList.take 10 = lastOfFebruary.chars ∧ lastOfFebruary.IsReal ∧
      looksLikeDate "2024-02-29T25:61Z" := by
  have same : "2024-02-29T25:61Z".toList.take 10 = "2024-02-29".toList.take 10 := by decide
  have begins : "2024-02-29T25:61Z".toList.take 10 = lastOfFebruary.chars := by decide
  have real : lastOfFebruary.IsReal := by
    unfold DateForm.IsReal
    decide
  exact ⟨same, looksLikeDate_leading.1 _ _ same, begins, real,
    (looksLikeDate_leading.2 _ _ begins).mpr real⟩

end Text

end CallSearch
