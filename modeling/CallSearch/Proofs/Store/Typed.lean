import CallSearch.Compile.Rule
import CallSearch.Proofs.Store.Joined
import CallSearch.Proofs.Store.Key
import CallSearch.Proofs.Store.Started

namespace CallSearch

open Expression

namespace CallColumn

def type? : CallColumn → Option ColumnType
  | .id => none
  | .agent | .text _ => some .text
  | .createdAt | .time _ => some .date
  | .number _ => some .number
  | .payload _ => some .json

variable {column : CallColumn} {name : String}

theorem name_of_ofName? (h : ofName? name = some column) : column.name = name := by
  rw [ofName?] at h
  simpa using List.find?_some h

theorem isIdentifier_name (column : CallColumn) : isIdentifier column.name.toList := by
  cases column with
  | id | agent | createdAt => decide
  | text column | time column | number column | payload column => cases column <;> decide

end CallColumn

namespace Source

/-- Whether a source is a column of some type; only of a document may it be a member. -/
structure Of (source : Source) (type : ColumnType) : Prop where
  typed : source.column.type? = some type
  whole : type ≠ .json → source.path = none

/-- Whether a written expression is read as a source. -/
def Reads (written : String) (source : Source) : Prop :=
  ∃ e, parse written = .ok e ∧ ofExpression e = .ok source

/-- Whether an expression is written for a source of some type, in which every path is plain. -/
structure WrittenAs (source : Source) (written : String) (type : ColumnType) : Prop where
  reads : Reads written source
  of : source.Of type
  plain : source.isPlain

end Source

namespace Compile

variable {c : Condition} {column : CallColumn} {type : ColumnType}

theorem target_plain (whole : c.hasSubkey = false) : target c false = c.column := by
  unfold Condition.hasSubkey at whole
  unfold target render
  cases subkey : c.subkey with
  | none => simp
  | some key =>
    have empty : key.isEmpty = true := by simpa [subkey] using whole
    simp [empty]

theorem reads_whole (known : CallColumn.ofName? c.column = some column)
    (whole : c.hasSubkey = false) (numeric : Bool) :
    Source.Reads (target c numeric) ⟨column, none, numeric⟩ := by
  have name := CallColumn.name_of_ofName? known
  have identifier := column.isIdentifier_name
  rw [name] at identifier
  refine ⟨_, parse_column identifier whole numeric, ?_⟩
  simp [Source.ofExpression, known]

theorem writtenAs_target (known : CallColumn.ofName? c.column = some column)
    (typed : column.type? = some type) (keyed : c.hasSubkey = (type == .json))
    (plain : ∀ key, c.subkey = some key → Json.isPlainName key) (numeric : Bool) :
    ∃ source : Source, source.WrittenAs (target c numeric) type := by
  have name := CallColumn.name_of_ofName? known
  by_cases json : type = .json
  · have keyed : c.hasSubkey = true := by simpa [json] using keyed
    obtain ⟨key, subkey, nonempty⟩ := (Option.any_eq_true _ _).mp keyed
    have nonempty : key ≠ "" := by simpa using nonempty
    have plain := plain key subkey
    obtain ⟨payload, rfl⟩ : ∃ payload, column = .payload payload := by
      rw [json] at typed
      cases column with
      | payload payload => exact ⟨payload, rfl⟩
      | id | agent | createdAt | text | time | number => cases typed
    rw [target, subkey]
    cases numeric with
    | true =>
      have identifier := CallColumn.isIdentifier_name (.payload payload)
      rw [name] at identifier
      have whole : Text.split '.' key = Text.split '.' (String.ofList key.toList) := by
        rw [String.ofList_toList]
      refine ⟨⟨.payload payload, some (Text.split '.' key), true⟩,
        ⟨_, parse_member_numeric identifier nonempty, ?_⟩, ⟨typed, fun other ↦ absurd json other⟩,
        ?_⟩
      · simp [Source.ofExpression, known, nonempty]
      · rw [whole]
        exact isPlainName_split plain (List.Subset.refl _)
    | false =>
      have reads := read_key nonempty payload
      have same : payload.name = c.column := name
      rw [same] at reads
      refine ⟨⟨.payload payload, keyPath key, endsNumeric key⟩, reads,
        ⟨typed, fun other ↦ absurd json other⟩, ?_⟩
      unfold Source.isPlain
      cases read : keyPath key with
      | none => rfl
      | some path => exact isPlainName_keyPath plain read
  · have whole : c.hasSubkey = false := by
      rw [keyed]
      simpa using json
    exact ⟨_, reads_whole known whole numeric, ⟨typed, fun _ ↦ rfl⟩, rfl⟩

end Compile

def Operator.relation? : Operator → Option Relation
  | .equals => some .equal
  | operator => operator.order?

theorem Relation.equal_text_iff {found : Option String} {s : String} :
    equal.holds (found.elim .null .text) (.text s) ↔ found = some s := by
  cases found with
  | none => simp [holds, Cell.equal]
  | some t => simp [holds, Cell.equal]

def Cell.Fits : Cell → Prop
  | .number n => n.fits
  | _ => True

namespace Test

variable {p : Predicate} {source : Source} {type : ColumnType} {s : String} {n : Number}
  {relation : Relation} {operator : Operator} {written : String} {bound : Cell}

theorem ofPredicate_pattern (reads : Source.Reads written source) (s : String) :
    ofPredicate ⟨written, .matchesPattern, .text s⟩ = .ok (.fits source (.text s)) := by
  obtain ⟨e, parsed, found⟩ := reads
  simp only [ofPredicate, Predicate.expression, parsed, found, Except.mapError, bind, Except.bind]
  rfl

theorem ofPredicate_never (reads : Source.Reads written source)
    (order : operator.order? = some relation) :
    ofPredicate ⟨written, operator, .null⟩ = .ok .never := by
  obtain ⟨e, parsed, found⟩ := reads
  cases operator <;> cases order <;>
  · simp only [ofPredicate, Predicate.expression, parsed, found, Except.mapError, bind, Except.bind]
    rfl

theorem ofPredicate_isNull (reads : Source.Reads written source) :
    ofPredicate ⟨written, .isNull, .null⟩ = .ok (.isEmpty source) := by
  obtain ⟨e, parsed, found⟩ := reads
  simp only [ofPredicate, Predicate.expression, parsed, found, Except.mapError, bind, Except.bind]
  rfl

theorem ofPredicate_notNull (reads : Source.Reads written source) :
    ofPredicate ⟨written, .notNull, .null⟩ = .ok (.notNull source) := by
  obtain ⟨e, parsed, found⟩ := reads
  simp only [ofPredicate, Predicate.expression, parsed, found, Except.mapError, bind, Except.bind]
  rfl

theorem ofPredicate_text (reads : Source.Reads written source)
    (compares : operator.relation? = some relation)
    (coerced : coerce source (.text s) = .ok bound) :
    ofPredicate ⟨written, operator, .text s⟩ = .ok (comparison source relation bound) := by
  obtain ⟨e, parsed, found⟩ := reads
  cases operator <;> cases compares <;>
  · simp only [ofPredicate, Predicate.expression, parsed, found, Except.mapError, bind, Except.bind,
      coerced]
    rfl

theorem ofPredicate_number (reads : Source.Reads written source)
    (compares : operator.relation? = some relation) (n : Number) :
    ofPredicate ⟨written, operator, .number n⟩ = .ok (comparison source relation (.number n)) := by
  obtain ⟨e, parsed, found⟩ := reads
  cases operator <;> cases compares <;>
  · simp only [ofPredicate, Predicate.expression, parsed, found, Except.mapError, bind, Except.bind]
    rfl

theorem ofPredicate_unreadable {error : QueryError} (reads : Source.Reads written source)
    (compares : operator.relation? = some relation)
    (unreadable : coerce source (.text s) = .error error) :
    ofPredicate ⟨written, operator, .text s⟩ = .error error := by
  obtain ⟨e, parsed, found⟩ := reads
  cases operator <;> cases compares <;>
  · simp only [ofPredicate, Predicate.expression, parsed, found, Except.mapError, bind, Except.bind,
      unreadable]
    rfl

section Coerce

variable (of : source.Of type)

include of

theorem coerce_text (plain : type = .text ∨ type = .json) (s : String) :
    coerce source (.text s) = .ok (.text s) := by
  obtain ⟨column, path, numeric⟩ := source
  have typed := of.typed
  have whole := of.whole
  cases column with
  | id => cases typed
  | agent | text | payload => cases path <;> rfl
  | createdAt | time | number =>
    cases typed
    rcases plain with plain | plain <;> cases plain

theorem coerce_date (date : type = .date) (s : String) :
    coerce source (.text s) =
      match Iso.timestamp s with
      | .ok t => .ok (.time t)
      | .error _ => .error (.invalidTime s) := by
  subst date
  obtain ⟨column, path, numeric⟩ := source
  obtain rfl : path = none := of.whole (by decide)
  have typed := of.typed
  cases column with
  | id | agent | text | number | payload => cases typed
  | createdAt | time => rfl

theorem coerce_number (number : type = .number) (s : String) :
    coerce source (.text s) =
      match Double.ofText? s with
      | some x => .ok (Cell.ofDouble x)
      | none => .error (.invalidNumber s) := by
  subst number
  obtain ⟨column, path, numeric⟩ := source
  obtain rfl : path = none := of.whole (by decide)
  have typed := of.typed
  cases column with
  | id | agent | text | createdAt | time | payload => cases typed
  | number => rfl

theorem affinity_number (number : type = .number) : source.affinity = .numeric := by
  subst number
  obtain ⟨column, path, numeric⟩ := source
  obtain rfl : path = none := of.whole (by decide)
  have typed := of.typed
  cases column with
  | id | agent | text | createdAt | time | payload => cases typed
  | number => rfl

end Coerce

theorem fits_ofInt (k : Int) : (Number.ofInt k).fits := by
  rw [Number.ofInt]
  split
  · next fits => exact fits
  · rfl

theorem fits_wholeTextNumber? {n : Number} (read : wholeTextNumber? s = some n) : n.fits := by
  unfold wholeTextNumber? at read
  dsimp only at read
  split at read
  · split at read
    · cases read
      exact fits_ofInt _
    · cases read
      rfl
  · cases read

theorem fits_bring (affinity : Affinity) (fits : bound.Fits) : (affinity.bring bound).Fits := by
  cases affinity with
  | text => cases bound <;> trivial
  | numeric =>
    cases bound with
    | text s =>
      simp only [Affinity.bring]
      cases read : wholeTextNumber? s with
      | none => trivial
      | some n => exact fits_wholeTextNumber? read
    | null | number | time => exact fits

theorem isBindable_comparison (source : Source) (relation : Relation) (fits : bound.Fits) :
    (comparison source relation bound).isBindable := by
  have given := fits_bring source.affinity fits
  rw [comparison]
  generalize source.affinity.bring bound = brought at given ⊢
  cases brought with
  | number n => exact given
  | null | text | time => rfl

end Test

end CallSearch
