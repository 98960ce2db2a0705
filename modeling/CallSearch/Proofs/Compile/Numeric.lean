import CallSearch.Proofs.Compile.Translated
import CallSearch.Proofs.Number

namespace CallSearch

namespace Number

/-- Whether a number can be given to the store and has a place on the number line. -/
structure IsBound (n : Number) : Prop where
  fits : n.fits
  some : n.isNan = false

end Number

theorem Call.cell_number (call : Call) (number : NumberColumn) :
    call.cell (.number number) = .null ∨
      ∃ x : Number, x.isNan = false ∧ call.cell (.number number) = .number x := by
  rw [cell]
  cases call.numbers number with
  | none => exact .inl rfl
  | some x =>
    cases nan : x.isNan with
    | true => exact .inl (by simp [Cell.ofDouble, nan])
    | false => exact .inr ⟨.real x, nan, by simp [Cell.ofDouble, nan]⟩

/-- The relation of a number to the value of a condition that an operation asks for. -/
def Operation.relation? : Operation → Option Relation
  | .equals => some .equal
  | .greaterThan => some .above
  | .lessThan => some .below
  | _ => none

namespace Relation

variable {relation : Relation} {x m n : Number}

theorem not_holds_null (bound : Cell) : relation.holds .null bound = false := by
  cases relation <;> cases bound <;> rfl

theorem exactlyOne_number (hx : x.isNan = false) (hm : m.isNan = false) :
    Compile.ExactlyOne (below.holds (.number x) (.number m)) (equal.holds (.number x) (.number m))
      (above.holds (.number x) (.number m)) := by
  obtain ⟨p, hp⟩ := Number.exists_place hx
  obtain ⟨q, hq⟩ := Number.exists_place hm
  simp only [holds, Cell.before, Cell.equal, Number.lt_iff hp hq, Number.lt_iff hq hp,
    Number.same_iff hp hq, Compile.ExactlyOne]
  rcases lt_trichotomy p q with less | rfl | greater
  · simp [less, less.ne, less.not_gt]
  · simp
  · simp [greater, greater.ne', greater.not_gt]

theorem atLeast_number_iff (hx : x.isNan = false) (hm : m.isNan = false) :
    atLeast.holds (.number x) (.number m) ↔ ¬below.holds (.number x) (.number m) := by
  obtain ⟨p, hp⟩ := Number.exists_place hx
  obtain ⟨q, hq⟩ := Number.exists_place hm
  simp only [holds, Cell.before, Cell.equal, Bool.or_eq_true, Number.lt_iff hp hq,
    Number.lt_iff hq hp, Number.same_iff hp hq]
  rw [not_lt, le_iff_eq_or_lt, eq_comm]

theorem atMost_number_iff (hx : x.isNan = false) (hm : m.isNan = false) :
    atMost.holds (.number x) (.number m) ↔ ¬above.holds (.number x) (.number m) := by
  obtain ⟨p, hp⟩ := Number.exists_place hx
  obtain ⟨q, hq⟩ := Number.exists_place hm
  simp only [holds, Cell.before, Cell.equal, Bool.or_eq_true, Number.lt_iff hp hq,
    Number.lt_iff hq hp, Number.same_iff hp hq]
  rw [not_lt, le_iff_eq_or_lt]

end Relation

namespace Compile

variable {types : ColumnTypes} {now : Timestamp} {column : Column} {number : NumberColumn}
  {operation : Operation} {operator : Operator} {relation : Relation} {value low high : String}
  {m n : Number} {calls : List Call}

theorem exists_numberColumn (numbers : column.type = .number) :
    ∃ number, CallColumn.ofName? column.name = some (.number number) := by
  cases column with
  | duration => exact ⟨.duration, by decide⟩
  | billingDuration => exact ⟨.billingDuration, by decide⟩
  | latency => exact ⟨.latency, by decide⟩
  | totalCost => exact ⟨.totalCost, by decide⟩
  | _ => cases numbers

def numberTest (number : NumberColumn) (bound : Relation × Number) : Test :=
  .compare ⟨.number number, none, false⟩ bound.1 (.number bound.2)

theorem ofPredicate_numberColumn (known : CallColumn.ofName? column.name = some (.number number))
    (compares : operator.relation? = some relation) (n : Number) :
    Test.ofPredicate ⟨column.name, operator, .number n⟩ =
      .ok (numberTest number (relation, n)) := by
  have reads := reads_whole (c := wholeColumn column .equals "") known rfl false
  rw [target_plain rfl] at reads
  exact Test.ofPredicate_number reads compares n

theorem exists_finds_numbers {c : Condition} {predicates : List Predicate}
    {bounds : List (Relation × Number)} (compiled : condition types now c = .ok predicates)
    (translated : Test.ofPredicates predicates = .ok (bounds.map (numberTest number)))
    (few : bounds.length ≤ 993)
    (fits : ∀ bound ∈ bounds, bound.2.fits) (calls : List Call) :
    ∃ chosen, Finds types now c calls chosen ∧ ∀ call, call ∈ chosen ↔ call ∈ calls ∧
      ∀ bound ∈ bounds, bound.1.holds (call.cell (.number number)) (.number bound.2) := by
  have bindable : ∀ test ∈ bounds.map (numberTest number), test.isBindable := by
    intro test among
    obtain ⟨bound, inside, rfl⟩ := List.mem_map.mp among
    exact fits bound inside
  have answers : ∀ test ∈ bounds.map (numberTest number), ∀ call, ∃ passed,
      test.holds call = .ok passed := by
    intro test among call
    obtain ⟨bound, -, rfl⟩ := List.mem_map.mp among
    exact ⟨_, rfl⟩
  obtain ⟨chosen, selected, mem_iff⟩ :=
    CallTable.select_answered translated (by simpa using few) bindable answers calls
  refine ⟨chosen, ⟨predicates, compiled, selected⟩, ?_⟩
  intro call
  rw [mem_iff, List.forall_mem_map]
  simp [numberTest, Test.holds, Source.cell, Source.plainCell]

theorem comparand_parsed (c : Condition) (whole : c.hasSubkey = false)
    (parsed : parseNumber (Text.strip value) = .ok n) :
    comparand c .number value = .ok (.number n) := by
  rw [comparand_number whole, parsed]
  rfl

theorem condition_compares (numbers : column.type = .number)
    (asks : operation.relation? = some relation)
    (parsed : parseNumber (Text.strip value) = .ok n) :
    ∃ operator : Operator, operator.relation? = some relation ∧
      condition types now (wholeColumn column operation value) =
        .ok [⟨column.name, operator, .number n⟩] := by
  have any := isBlankText_of_parseNumber parsed
  have listed : operation ∈ column.type.operations := by
    rw [numbers]
    cases operation <;> first | decide | cases asks
  have compared (operator : Operator) :
      comparison (wholeColumn column operation value) .number operator =
        .ok [⟨column.name, operator, .number n⟩] := by
    have read := comparand_parsed (wholeColumn column operation value) rfl parsed
    rw [comparison, target_plain rfl]
    change (comparand _ _ value).map _ = _
    rw [read]
    rfl
  rw [condition_wholeColumn listed (by simp [numbers]) any, numbers]
  cases operation <;> cases asks
  · exact ⟨.equals, rfl, compared .equals⟩
  · exact ⟨.above, rfl, compared .above⟩
  · exact ⟨.below, rfl, compared .below⟩

theorem finds_compares (types : ColumnTypes) (now : Timestamp) (numbers : column.type = .number)
    (known : CallColumn.ofName? column.name = some (.number number))
    (asks : operation.relation? = some relation)
    (parsed : parseNumber (Text.strip value) = .ok n) (fits : n.fits) (calls : List Call) :
    ∃ chosen, Finds types now (wholeColumn column operation value) calls chosen ∧
      ∀ call ∈ calls,
        call ∈ chosen ↔ relation.holds (call.cell (.number number)) (.number n) := by
  obtain ⟨operator, compares, compiled⟩ := condition_compares numbers asks parsed
  have translated : Test.ofPredicates [⟨column.name, operator, .number n⟩] =
      .ok ([(relation, n)].map (numberTest number)) :=
    Test.ofPredicates_single (ofPredicate_numberColumn known compares n)
  obtain ⟨chosen, found, mem_iff⟩ :=
    exists_finds_numbers compiled translated (by simp) (by simpa) calls
  refine ⟨chosen, found, ?_⟩
  intro call inside
  rw [mem_iff]
  simp [inside]

theorem finds_range (types : ColumnTypes) (now : Timestamp) (numbers : column.type = .number)
    (known : CallColumn.ofName? column.name = some (.number number))
    (parsed : parseNumber (Text.strip low) = .ok m)
    (parsed' : parseNumber (Text.strip high) = .ok n) (fits : m.fits) (fits' : n.fits)
    (calls : List Call) :
    ∃ chosen,
      Finds types now (wholeColumn column .between (low ++ "," ++ high)) calls chosen ∧
        ∀ call ∈ calls, call ∈ chosen ↔
          Relation.atLeast.holds (call.cell (.number number)) (.number m) ∧
            Relation.atMost.holds (call.cell (.number number)) (.number n) := by
  have any := isBlankText_of_parseNumber parsed
  have any' := isBlankText_of_parseNumber parsed'
  have free : ',' ∉ low.toList :=
    mt (Text.mem_strip_iff (by decide)).mpr (free_of_parseNumber parsed)
  have longer : Text.isBlankText (low ++ "," ++ high) = false := by
    simp [Text.isBlankText_append, any]
  have compiled : condition types now (wholeColumn column .between (low ++ "," ++ high)) =
      .ok [⟨column.name, .atLeast, .number m⟩, ⟨column.name, .atMost, .number n⟩] := by
    have listed : Operation.between ∈ column.type.operations := by
      rw [numbers]
      decide
    rw [← Text.strip_strip] at parsed parsed'
    have lower := comparand_parsed
      (wholeColumn column .between (low ++ "," ++ high)) rfl parsed
    have upper := comparand_parsed
      (wholeColumn column .between (low ++ "," ++ high)) rfl parsed'
    have range : parseRange (wholeColumn column .between (low ++ "," ++ high)).value = _ :=
      parseRange_eq free any any'
    rw [condition_wholeColumn listed (by simp [numbers]) longer, numbers, operationPredicates,
      range, target_plain rfl]
    simp only [bind, Except.bind, lower, upper]
    rfl
  have translated :
      Test.ofPredicates [⟨column.name, .atLeast, .number m⟩, ⟨column.name, .atMost, .number n⟩] =
        .ok ([(.atLeast, m), (.atMost, n)].map (numberTest number)) := by
    rw [Test.ofPredicates_cons (ofPredicate_numberColumn known rfl m),
      Test.ofPredicates_single (ofPredicate_numberColumn known rfl n)]
    rfl
  obtain ⟨chosen, found, mem_iff⟩ :=
    exists_finds_numbers compiled translated (by simp) (by simp [fits, fits']) calls
  refine ⟨chosen, found, ?_⟩
  intro call inside
  rw [mem_iff]
  simp [inside]

/-- What the store finds for comparisons of a column of numbers, however their numbers are written.
A call with a number is found for exactly one of below, equal to and above a number, by its exact
value, and within a range exactly if it is neither below the one end nor above the other. A call
without a number is found for none of them. -/
theorem numbers_ordered (types : ColumnTypes) (now : Timestamp) (numbers : column.type = .number)
    (parsed : parseNumber (Text.strip low) = .ok m)
    (parsed' : parseNumber (Text.strip high) = .ok n) (bound : m.IsBound) (bound' : n.IsBound)
    (calls : List Call) :
    ∃ number, CallColumn.ofName? column.name = some (.number number) ∧
      ∃ below equal above beyond within,
        Finds types now (wholeColumn column .lessThan low) calls below ∧
        Finds types now (wholeColumn column .equals low) calls equal ∧
        Finds types now (wholeColumn column .greaterThan low) calls above ∧
        Finds types now (wholeColumn column .greaterThan high) calls beyond ∧
        Finds types now (wholeColumn column .between (low ++ "," ++ high)) calls within ∧
        ∀ call ∈ calls,
          ((call.cell (.number number)).isNull = false →
            ExactlyOne (call ∈ below) (call ∈ equal) (call ∈ above) ∧
            (call ∈ within ↔ call ∉ below ∧ call ∉ beyond) ∧
            ∃ x, call.cell (.number number) = .number x ∧ (call ∈ below ↔ x.lt m) ∧
              (call ∈ equal ↔ x.same m) ∧ (call ∈ above ↔ m.lt x)) ∧
          ((call.cell (.number number)).isNull →
            call ∉ below ∧ call ∉ equal ∧ call ∉ above ∧ call ∉ within) := by
  obtain ⟨number, known⟩ := exists_numberColumn numbers
  have less : Operation.lessThan.relation? = some .below := rfl
  have same : Operation.equals.relation? = some .equal := rfl
  have greater : Operation.greaterThan.relation? = some .above := rfl
  obtain ⟨below, found_below, mem_below⟩ :=
    finds_compares types now numbers known less parsed bound.fits calls
  obtain ⟨equal, found_equal, mem_equal⟩ :=
    finds_compares types now numbers known same parsed bound.fits calls
  obtain ⟨above, found_above, mem_above⟩ :=
    finds_compares types now numbers known greater parsed bound.fits calls
  obtain ⟨beyond, found_beyond, mem_beyond⟩ :=
    finds_compares types now numbers known greater parsed' bound'.fits calls
  obtain ⟨within, found_within, mem_within⟩ :=
    finds_range types now numbers known parsed parsed' bound.fits bound'.fits calls
  refine ⟨number, known, below, equal, above, beyond, within, found_below, found_equal, found_above,
    found_beyond, found_within, ?_⟩
  intro call inside
  rw [mem_below call inside, mem_equal call inside, mem_above call inside, mem_beyond call inside,
    mem_within call inside]
  rcases call.cell_number number with nothing | ⟨x, some, holds⟩
  · rw [nothing]
    simp [Cell.isNull, Relation.not_holds_null]
  · rw [holds]
    constructor
    · intro _
      refine ⟨Relation.exactlyOne_number some bound.some, ?_, x, rfl, .rfl, .rfl, .rfl⟩
      rw [Relation.atLeast_number_iff some bound.some, Relation.atMost_number_iff some bound'.some]
    · intro null
      cases null

def delayedCall (latency : Double) : Call where
  id := 1
  agent := "a"
  createdAt := .startOf default
  texts _ := none
  times _ := none
  numbers
    | .latency => some latency
    | _ => none
  payloads _ := none

/-- A call with a latency of `2 ^ 53`, and the next whole number, which is no floating point number. -/
theorem numbers_ordered_large :
    ∃ below within, Finds [] (.startOf default) (wholeColumn .latency .lessThan " 9007199254740993")
        [delayedCall (.finite false 1076 0)] below ∧
      Finds [] (.startOf default) (wholeColumn .latency .between " 9007199254740993,+inf")
        [delayedCall (.finite false 1076 0)] within ∧
      delayedCall (.finite false 1076 0) ∈ below ∧
      delayedCall (.finite false 1076 0) ∉ within := by
  obtain ⟨number, known, below, equal, above, beyond, within, found, -, -, -, found', split⟩ :=
    @numbers_ordered .latency " 9007199254740993" "+inf" (.int 9007199254740993)
      (.real (.infinite false)) [] (.startOf default) rfl (by cbv) (by cbv) ⟨rfl, rfl⟩ ⟨rfl, rfl⟩
      [delayedCall (.finite false 1076 0)]
  obtain rfl : number = .latency := by
    have column : CallColumn.ofName? Column.latency.name = some (.number .latency) := by decide
    cases known.symm.trans column
    rfl
  obtain ⟨-, within_iff, x, holds, below_iff, -⟩ := (split _ (.head _)).1 rfl
  cases holds
  have least : delayedCall (.finite false 1076 0) ∈ below :=
    below_iff.mpr (by decide +kernel)
  exact ⟨below, within, found, found', least, fun inside ↦ (within_iff.mp inside).1 least⟩

end Compile

end CallSearch
