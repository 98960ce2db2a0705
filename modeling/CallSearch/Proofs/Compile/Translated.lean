import CallSearch.Proofs.Compile.Day
import CallSearch.Proofs.Store.Typed

namespace CallSearch

/-- How the store runs some tests: whether one of them is never passed, whether one has a bound that
cannot be given to it, and whether it may fail on a call. -/
structure Test.RunAs (tests : List Test) (never large long : Prop) : Prop where
  never : .never ∈ tests ↔ never
  bindable : (∀ test ∈ tests, test.isBindable) ↔ ¬large
  safe : (∀ test ∈ tests, test.isSafe) ↔ ¬long

namespace Test.RunAs

variable {tests later : List Test} {never large long never' large' long' : Prop} {source : Source}

theorem congr (h : RunAs tests never large long) (sameNever : never ↔ never')
    (sameLarge : large ↔ large') (sameLong : long ↔ long') : RunAs tests never' large' long' :=
  ⟨h.never.trans sameNever, h.bindable.trans (not_congr sameLarge),
    h.safe.trans (not_congr sameLong)⟩

theorem nil : RunAs [] False False False := ⟨by simp, by simp, by simp⟩

theorem append (h : RunAs tests never large long) (h' : RunAs later never' large' long') :
    RunAs (tests ++ later) (never ∨ never') (large ∨ large') (long ∨ long') where
  never := by rw [List.mem_append, h.never, h'.never]
  bindable := by rw [List.forall_mem_append, h.bindable, h'.bindable, not_or]
  safe := by rw [List.forall_mem_append, h.safe, h'.safe, not_or]

theorem single {test : Test} (some : test ≠ .never) (safe : test.isSafe) :
    RunAs [test] False (test.isBindable = false) False where
  never := by simpa using some.symm
  bindable := by simp
  safe := by simpa using safe

theorem unpassed : RunAs [.never] True False False where
  never := by simp
  bindable := by simp [isBindable]
  safe := by simp [isSafe]

theorem comparison {bound : Cell} (plain : source.isPlain) (relation : Relation)
    (fits : bound.Fits) : RunAs [Test.comparison source relation bound] False False False := by
  have safe : (Test.comparison source relation bound).isSafe := plain
  refine (single (by simp [Test.comparison]) safe).congr .rfl ?_ .rfl
  rw [isBindable_comparison source relation fits]
  simp

theorem fits (plain : source.isPlain) (pattern : String) :
    RunAs [.fits source (.text pattern)] False False
      (Pattern.sizeLimit < pattern.utf8ByteSize) where
  never := by simp
  bindable := by simp [isBindable]
  safe := by simp [isSafe, plain, patternText?, Cell.asText]

end Test.RunAs

namespace Compile

/-- Whether a condition is to equal a text that is none of what its column holds. -/
def Unreadable (c : Condition) : ColumnType → Operation → Prop
  | .date, .jsonEquals => ∀ t, Iso.timestamp c.value ≠ .ok t
  | .number, .jsonEquals => Double.ofText? c.value = none
  | _, _ => False

/-- Whether a condition compares members with a number, but its value begins with none. -/
def Hopeless (c : Condition) : ColumnType → Operation → Prop
  | _, .jsonGreaterThan | _, .jsonLessThan => leadingNumber c.value = .ok none
  | _, _ => False

/-- Whether a condition names a whole number that does not fit into 64 bits. -/
def TooLarge (c : Condition) : ColumnType → Operation → Prop
  | .number, .equals | .number, .greaterThan | .number, .lessThan =>
    ∃ n, parseNumber (Text.strip c.value) = .ok n ∧ n.fits = false
  | .number, .between =>
    ∃ low high m n, parseRange c.value = .ok (low, high) ∧
      parseNumber (Text.strip low) = .ok m ∧ parseNumber (Text.strip high) = .ok n ∧
        (m.fits = false ∨ n.fits = false)
  | _, _ => False

/-- Whether the pattern of a condition is longer than the store takes. -/
def TooLong (c : Condition) : ColumnType → Operation → Prop
  | _, .contains | _, .jsonContains => Pattern.sizeLimit < c.value.utf8ByteSize + 2
  | _, .startsWith | _, .endsWith => Pattern.sizeLimit < c.value.utf8ByteSize + 1
  | _, _ => False

variable {types : ColumnTypes} {now : Timestamp} {c : Condition} {operation : Operation}
  {type : ColumnType} {predicates : List Predicate} {source : Source}

section Translate

/-- Whether predicates become tests that the store runs in some way. -/
def Translates (predicates : List Predicate) (never large long : Prop) : Prop :=
  ∃ tests, Test.ofPredicates predicates = .ok tests ∧ Test.RunAs tests never large long

variable {p : Predicate} {test : Test} {never large long : Prop}

theorem translates_single (translated : Test.ofPredicate p = .ok test)
    (runs : Test.RunAs [test] never large long) : Translates [p] never large long :=
  ⟨[test], Test.ofPredicates_single translated, runs⟩

theorem translates_pattern (h : source.WrittenAs (target c false) type) (before after : String) :
    Translates (pattern c before after) False False
      (Pattern.sizeLimit < (before ++ c.value ++ after).utf8ByteSize) :=
  translates_single (Test.ofPredicate_pattern h.reads _) (.fits h.plain _)

theorem translates_text {operator : Operator} {relation : Relation} {written s : String}
    {bound : Cell} (h : source.WrittenAs written type)
    (compares : operator.relation? = some relation)
    (coerced : Test.coerce source (.text s) = .ok bound) (fits : bound.Fits) :
    Translates [⟨written, operator, .text s⟩] False False False :=
  translates_single (Test.ofPredicate_text h.reads compares coerced)
    (.comparison h.plain relation fits)

theorem Translates.append {predicates others : List Predicate}
    {never large long never' large' long' : Prop} (h : Translates predicates never large long)
    (h' : Translates others never' large' long') :
    Translates (predicates ++ others) (never ∨ never') (large ∨ large') (long ∨ long') := by
  obtain ⟨tests, translated, runs⟩ := h
  obtain ⟨later, translated', runs'⟩ := h'
  exact ⟨_, Test.ofPredicates_append translated translated', runs.append runs'⟩

theorem Translates.congr {never' large' long' : Prop} (h : Translates predicates never large long)
    (sameNever : never ↔ never') (sameLarge : large ↔ large') (sameLong : long ↔ long') :
    Translates predicates never' large' long' := by
  obtain ⟨tests, translated, runs⟩ := h
  exact ⟨tests, translated, runs.congr sameNever sameLarge sameLong⟩

theorem translates_number {operator : Operator} {relation : Relation} {written : String}
    (h : source.WrittenAs written .number) (compares : operator.relation? = some relation)
    (n : Number) :
    Translates [⟨written, operator, .number n⟩] False (n.fits = false) False := by
  have kept : Test.comparison source relation (.number n) =
      .compare source relation (.number n) := by
    rw [Test.comparison, Test.affinity_number h.of rfl]
    rfl
  refine translates_single (Test.ofPredicate_number h.reads compares n) ?_
  rw [kept]
  exact .single (by simp) h.plain

theorem translates_real {operator : Operator} {relation : Relation} {written : String}
    (h : source.WrittenAs written type) (compares : operator.relation? = some relation)
    (x : Double) : Translates [⟨written, operator, .number (.real x)⟩] False False False :=
  translates_single (Test.ofPredicate_number h.reads compares _) (.comparison h.plain relation rfl)

theorem translates_day {operator : Operator} {relation : Relation} {written day : String}
    {t : Timestamp} (h : source.WrittenAs written .date)
    (compares : operator.relation? = some relation) (read : Iso.timestamp day = .ok t) :
    Translates [⟨written, operator, .text day⟩] False False False := by
  have coerced : Test.coerce source (.text day) = .ok (.time t) := by
    rw [Test.coerce_date h.of rfl, read]
  exact translates_text h compares coerced trivial

end Translate

section Operations

variable {operator : Operator} {relation : Relation}

theorem translates_withinDays {first last : Date} (h : source.WrittenAs (target c false) .date)
    (whole : c.hasSubkey = false) :
    Translates (withinDays c first last) False False False := by
  rw [target_plain whole] at h
  have lower : Translates [⟨c.column, .atLeast, startOfDay first⟩] False False False :=
    translates_day h rfl timestamp_startOfDay
  have upper : Translates [⟨c.column, .atMost, endOfDay last⟩] False False False :=
    translates_day h rfl timestamp_endOfDay
  simpa [withinDays] using lower.append upper

theorem translates_startOfDay {day : Date} (h : source.WrittenAs (target c false) .date)
    (whole : c.hasSubkey = false) (compares : operator.relation? = some relation) :
    Translates [⟨c.column, operator, startOfDay day⟩] False False False := by
  rw [target_plain whole] at h
  exact translates_day h compares timestamp_startOfDay

theorem comparand_number (whole : c.hasSubkey = false) (raw : String) :
    comparand c .number raw = (parseNumber (Text.strip raw)).map .number := by
  simp [comparand, whole]

theorem translates_comparand {raw : String} {value : Value}
    (h : source.WrittenAs (target c false) type) (notDate : type ≠ .date)
    (keyed : c.hasSubkey = (type == .json)) (compares : operator.relation? = some relation)
    (compared : comparand c type raw = .ok value) :
    Translates [⟨target c false, operator, value⟩] False
      (type = .number ∧ ∃ n, parseNumber (Text.strip raw) = .ok n ∧ n.fits = false) False := by
  by_cases number : type = .number
  · subst number
    rw [comparand_number keyed] at compared
    obtain ⟨n, parsed, rfl⟩ := ok_map_iff.mp compared
    exact (translates_number h compares n).congr .rfl (by simp [parsed]) .rfl
  · have plain : type = .text ∨ type = .json := by
      cases type <;> simp_all
    have same : comparand c type raw = .ok (.text raw) := by simp [comparand, number]
    cases same.symm.trans compared
    exact (translates_text h compares (Test.coerce_text h.of plain raw) trivial).congr .rfl
      (by simp [number]) .rfl

theorem translates_comparison (h : source.WrittenAs (target c false) type)
    (notDate : type ≠ .date) (keyed : c.hasSubkey = (type == .json))
    (compares : operator.relation? = some relation)
    (compared : comparison c type operator = .ok predicates) :
    Translates predicates False
      (type = .number ∧ ∃ n, parseNumber (Text.strip c.value) = .ok n ∧ n.fits = false) False := by
  obtain ⟨value, given, rfl⟩ := ok_map_iff.mp compared
  exact translates_comparand h notDate keyed compares given

theorem translates_between (h : source.WrittenAs (target c false) type)
    (keyed : c.hasSubkey = (type == .json))
    (compiled : operationPredicates now c type .between = .ok predicates) :
    Translates predicates False (TooLarge c type .between) False := by
  obtain ⟨⟨low, high⟩, range, compiled⟩ := ok_of_bind compiled
  by_cases date : type = .date
  · subst date
    obtain ⟨first, -, compiled⟩ := ok_of_bind compiled
    obtain ⟨last, -, compiled⟩ := ok_of_bind compiled
    cases compiled
    exact translates_withinDays h keyed
  · simp only [beq_iff_eq, date, if_false] at compiled
    obtain ⟨least, compared, compiled⟩ := ok_of_bind compiled
    obtain ⟨greatest, compared', compiled⟩ := ok_of_bind compiled
    cases compiled
    have lower : Translates [⟨target c false, .atLeast, least⟩] _ _ _ :=
      translates_comparand h date keyed rfl compared
    have upper : Translates [⟨target c false, .atMost, greatest⟩] _ _ _ :=
      translates_comparand h date keyed rfl compared'
    refine (lower.append upper).congr (by simp) ?_ (by simp)
    cases type with
    | text | date | json => simp [TooLarge]
    | number =>
      rw [comparand_number keyed] at compared compared'
      obtain ⟨m, parsed, -⟩ := ok_map_iff.mp compared
      obtain ⟨n, parsed', -⟩ := ok_map_iff.mp compared'
      simp [TooLarge, range, parsed, parsed']

theorem translates_numericComparison (h : source.WrittenAs (target c true) type)
    (order : operator.order? = some relation)
    (compiled : numericComparison c operator = .ok predicates) :
    Translates predicates (leadingNumber c.value = .ok none) False False := by
  have compares : operator.relation? = some relation := by
    cases operator with
    | equals => cases order
    | _ => exact order
  unfold numericComparison at compiled
  cases led : leadingNumber c.value with
  | error stop =>
    rw [led] at compiled
    cases compiled
  | ok number =>
    rw [led] at compiled
    cases compiled
    cases number with
    | none =>
      have unpassed := translates_single (Test.ofPredicate_never h.reads order) .unpassed
      exact unpassed.congr (by simp) .rfl .rfl
    | some x => exact (translates_real h compares x).congr (by simp) .rfl .rfl

end Operations

theorem translates_jsonEquals (h : source.WrittenAs (target c false) type)
    (readable : ¬Unreadable c type .jsonEquals) :
    Translates [⟨target c false, .equals, .text c.value⟩] False False False := by
  cases type with
  | text => exact translates_text h rfl (Test.coerce_text h.of (.inl rfl) _) trivial
  | json => exact translates_text h rfl (Test.coerce_text h.of (.inr rfl) _) trivial
  | date =>
    obtain ⟨t, read⟩ := not_forall_not.mp readable
    exact translates_day h rfl read
  | number =>
    obtain ⟨x, read⟩ := Option.ne_none_iff_exists'.mp readable
    have coerced := Test.coerce_number h.of rfl c.value
    rw [read] at coerced
    refine translates_text h rfl coerced ?_
    unfold Cell.ofDouble
    split <;> trivial

theorem translates_operation
    (written : ∀ numeric, ∃ source : Source, source.WrittenAs (target c numeric) type)
    (keyed : c.hasSubkey = (type == .json))
    (compiled : operationPredicates now c type operation = .ok predicates)
    (readable : ¬Unreadable c type operation) :
    Translates predicates (Hopeless c type operation) (TooLarge c type operation)
      (TooLong c type operation) := by
  obtain ⟨source, plain⟩ := written false
  cases operation with
  | contains | jsonContains | startsWith | endsWith =>
    cases compiled
    have percent : "%".utf8ByteSize = 1 := rfl
    refine (translates_pattern plain _ _).congr ?_ ?_ ?_ <;> cases type <;>
      simp [Hopeless, TooLarge, TooLong, String.utf8ByteSize_append, percent] <;> omega
  | isEmpty =>
    cases compiled
    refine (translates_single (Test.ofPredicate_isNull plain.reads)
      (.single (by simp) plain.plain)).congr ?_ ?_ ?_ <;> cases type <;>
      simp [Hopeless, TooLarge, TooLong, Test.isBindable]
  | jsonExists =>
    cases compiled
    refine (translates_single (Test.ofPredicate_notNull plain.reads)
      (.single (by simp) plain.plain)).congr ?_ ?_ ?_ <;> cases type <;>
      simp [Hopeless, TooLarge, TooLong, Test.isBindable]
  | jsonEquals =>
    cases compiled
    refine (translates_jsonEquals plain readable).congr ?_ ?_ ?_ <;>
      cases type <;> simp [Hopeless, TooLarge, TooLong]
  | jsonGreaterThan | jsonLessThan =>
    obtain ⟨source, number⟩ := written true
    refine (translates_numericComparison number rfl compiled).congr ?_ ?_ ?_ <;>
      cases type <;> simp [Hopeless, TooLarge, TooLong]
  | equals =>
    by_cases date : type = .date
    · subst date
      obtain ⟨day, -, compiled⟩ := ok_of_bind compiled
      cases compiled
      exact translates_withinDays plain keyed
    · have compiled : comparison c type .equals = .ok predicates := by
        simpa [operationPredicates, date] using compiled
      refine (translates_comparison plain date keyed rfl compiled).congr ?_ ?_ ?_ <;>
        cases type <;> simp [Hopeless, TooLarge, TooLong]
  | greaterThan =>
    by_cases date : type = .date
    · subst date
      obtain ⟨day, -, compiled⟩ := ok_of_bind compiled
      obtain ⟨next, -, compiled⟩ := ok_of_bind compiled
      cases compiled
      exact translates_startOfDay plain keyed rfl
    · have compiled : comparison c type .above = .ok predicates := by
        simpa [operationPredicates, date] using compiled
      refine (translates_comparison plain date keyed rfl compiled).congr ?_ ?_ ?_ <;>
        cases type <;> simp [Hopeless, TooLarge, TooLong]
  | lessThan =>
    by_cases date : type = .date
    · subst date
      obtain ⟨day, -, compiled⟩ := ok_of_bind compiled
      cases compiled
      exact translates_startOfDay plain keyed rfl
    · have compiled : comparison c type .below = .ok predicates := by
        simpa [operationPredicates, date] using compiled
      refine (translates_comparison plain date keyed rfl compiled).congr ?_ ?_ ?_ <;>
        cases type <;> simp [Hopeless, TooLarge, TooLong]
  | between =>
    refine (translates_between plain keyed compiled).congr ?_ .rfl ?_ <;>
      cases type <;> simp [Hopeless, TooLong]

end Compile

end CallSearch
