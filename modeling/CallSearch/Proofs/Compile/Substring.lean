import CallSearch.Proofs.Compile.Answered
import CallSearch.Proofs.Store.Pattern

namespace CallSearch

open Pattern

namespace Operation

def textSearches : List Operation := [.contains, .startsWith, .endsWith]

/-- The pattern that a condition on a text makes of its value. -/
def patternOf (operation : Operation) (value : String) : String :=
  match operation with
  | .contains => "%" ++ value ++ "%"
  | .startsWith => "" ++ value ++ "%"
  | .endsWith => "%" ++ value ++ ""
  | _ => value

/-- Whether a value stands in a text where an operation looks for it, up to the case of letters. -/
def Hits (operation : Operation) (value text : List Char) : Prop :=
  match operation with
  | .contains => lowered value <:+: lowered text
  | .startsWith => lowered value <+: lowered text
  | .endsWith => lowered value <:+ lowered text
  | _ => False

variable {operation : Operation} {value : String} {text : List Char}

theorem mem_textSearches_iff :
    operation ∈ textSearches ↔
      operation = .contains ∨ operation = .startsWith ∨ operation = .endsWith := by
  simp [textSearches]

theorem readable_patternOf (searches : operation ∈ textSearches) (whole : Whole value) :
    readable (operation.patternOf value) = (operation.patternOf value).toList := by
  have percent : Whole "%" := rfl
  have nothing : Whole "" := rfl
  rcases mem_textSearches_iff.mp searches with rfl | rfl | rfl
  · exact (percent.append whole).append percent
  · exact (nothing.append whole).append percent
  · exact (percent.append whole).append nothing

/-- A value without `%` and `_` is found where it stands, and nowhere else. -/
theorem spells_patternOf_iff (searches : operation ∈ textSearches) (whole : Whole value)
    (plain : ∀ p ∈ value.toList, Plain p) :
    Spells (readable (operation.patternOf value)) text ↔ operation.Hits value.toList text := by
  rw [readable_patternOf searches whole]
  rcases mem_textSearches_iff.mp searches with rfl | rfl | rfl
  · simpa [patternOf, Hits] using spells_between_plain_iff plain
  · simpa [patternOf, Hits] using spells_before_plain_iff plain
  · simpa [patternOf, Hits] using spells_after_plain_iff plain

theorem Hits.infix (hits : operation.Hits value.toList text) :
    lowered value.toList <:+: lowered text := by
  cases operation with
  | contains => exact hits
  | startsWith => exact List.IsPrefix.isInfix hits
  | endsWith => exact List.IsSuffix.isInfix hits
  | _ => cases hits

theorem exists_spells_not_hits (searches : operation ∈ textSearches) (whole : Whole value)
    (wild : ∃ p ∈ value.toList, ¬Plain p) :
    ∃ t, Whole t ∧ Spells (readable (operation.patternOf value)) (readable t) ∧
      ¬operation.Hits value.toList (readable t) := by
  obtain ⟨p, inside, notPlain⟩ := wild
  have whole' := whole_filled whole
  refine ⟨_, whole', ?_, ?_⟩
  · rw [readable_patternOf searches whole, whole', String.toList_ofList]
    have spells := spells_filled value.toList
    rcases mem_textSearches_iff.mp searches with rfl | rfl | rfl
    · simpa [patternOf] using spells_between_iff.mpr ⟨[], _, [], by simp, spells⟩
    · simpa [patternOf] using spells_before_iff.mpr ⟨_, [], by simp, spells⟩
    · simpa [patternOf] using Spells.run [] spells
  · rw [whole', String.toList_ofList]
    intro hits
    exact not_infix_filled inside notPlain hits.infix

end Operation

namespace Compile

open Operation

variable {types : ColumnTypes} {now : Timestamp} {column : Column} {text : TextColumn}
  {operation : Operation} {value : String}

theorem operation_textSearch (now : Timestamp) (c : Condition) (type : ColumnType)
    (searches : operation ∈ textSearches) :
    operationPredicates now c type operation =
      .ok [⟨target c false, .matchesPattern, .text (operation.patternOf c.value)⟩] := by
  rcases mem_textSearches_iff.mp searches with rfl | rfl | rfl <;> rfl

theorem exists_textColumn (texts : column.type = .text) :
    ∃ text, CallColumn.ofName? column.name = some (.text text) := by
  cases column with
  | customerNumber => exact ⟨.customerNumber, by decide⟩
  | callId => exact ⟨.callId, by decide⟩
  | endedReason => exact ⟨.endedReason, by decide⟩
  | _ => cases texts

theorem finds_textSearch_iff (texts : column.type = .text) (searches : operation ∈ textSearches)
    (any : Text.isBlankText value = false) {calls chosen : List Call} :
    Finds types now (wholeColumn column operation value) calls chosen ↔
      CallTable.select (some calls)
        [⟨column.name, .matchesPattern, .text (operation.patternOf value)⟩] = .ok chosen := by
  have listed : operation ∈ column.type.operations := by
    rw [texts]
    revert operation
    decide
  have notJson : column.type ≠ .json := by simp [texts]
  unfold Finds
  rw [condition_wholeColumn listed notJson any, operation_textSearch now _ _ searches,
    target_plain rfl]
  simp [wholeColumn]

section Select

variable {pattern : String} {calls chosen : List Call} {call : Call}

theorem ofPredicate_textColumn (known : CallColumn.ofName? column.name = some (.text text)) :
    Test.ofPredicate ⟨column.name, .matchesPattern, .text pattern⟩ =
      .ok (.fits ⟨.text text, none, false⟩ (.text pattern)) := by
  have reads := reads_whole (c := wholeColumn column .equals "") known rfl false
  rw [target_plain rfl] at reads
  exact Test.ofPredicate_pattern reads pattern

theorem holds_pattern (source : Source) (pattern : String) (call : Call) :
    Test.holds call (.fits source (.text pattern)) =
      if sizeLimit < pattern.utf8ByteSize then .error .refused
      else .ok ((source.cell call).asText.any (fits pattern)) := rfl

theorem answers_pattern_iff (source : Source) (pattern : String) (call : Call) :
    Test.answers [.fits source (.text pattern)] call ↔ pattern.utf8ByteSize ≤ sizeLimit := by
  rw [Test.answers, Test.holdAll, holds_pattern]
  split
  · next long => simp [bind, Except.bind, Except.isOk, Except.toBool, long]
  · next short =>
    cases (source.cell call).asText.any (fits pattern) <;>
      simp [bind, Except.bind, Except.isOk, Except.toBool, Test.holdAll, pure, Except.pure,
        not_lt.mp short]

theorem accepts_pattern_iff (known : CallColumn.ofName? column.name = some (.text text)) :
    CallTable.Accepts (some calls) [⟨column.name, .matchesPattern, .text pattern⟩] ↔
      calls = [] ∨ pattern.utf8ByteSize ≤ sizeLimit := by
  have read := Test.ofQuery_of_short
    (Test.ofPredicates_single (@ofPredicate_textColumn _ _ pattern known)) (by simp)
  have some : Test.never ∉ [.fits ⟨.text text, none, false⟩ (.text pattern)] := by simp
  rw [CallTable.accepts_tests read, or_iff_right some, and_iff_right (by simp [Test.isBindable])]
  simp only [answers_pattern_iff]
  cases calls with
  | nil => simp
  | cons call rest =>
    simp only [List.cons_ne_nil, false_or]
    exact ⟨fun each ↦ each call (.head _), fun short _ _ ↦ short⟩

theorem mem_select_pattern_iff (known : CallColumn.ofName? column.name = some (.text text))
    (selected : CallTable.select (some calls)
      [⟨column.name, .matchesPattern, .text pattern⟩] = .ok chosen)
    (inside : call ∈ calls) :
    call ∈ chosen ↔ ∃ t, call.texts text = some t ∧ Spells (readable pattern) (readable t) := by
  have short : pattern.utf8ByteSize ≤ sizeLimit := by
    rcases (accepts_pattern_iff known).mp (CallTable.accepts_iff.mpr ⟨_, selected⟩) with
      rfl | short
    · cases inside
    · exact short
  have held : Test.holds call (.fits ⟨.text text, none, false⟩ (.text pattern)) =
      .ok ((call.texts text).any (fits pattern)) := by
    have cell : (Source.cell ⟨.text text, none, false⟩ call).asText = call.texts text := by
      change ((call.texts text).elim Cell.null Cell.text).asText = _
      cases call.texts text <;> rfl
    rw [holds_pattern, if_neg (not_lt.mpr short), cell]
  rw [CallTable.mem_select_iff selected, Matches]
  simp only [List.forall_mem_singleton, Predicate.Holds, ofPredicate_textColumn known,
    Except.ok.injEq, exists_eq_left', held, Option.any_eq_true, fits_iff]
  exact and_iff_right inside

end Select

/-- What the store finds for a search in a column of texts: the calls with a text that the pattern
fits, and none without a text. It is a search for the value itself, as far as the store reads texts,
exactly if neither `%` nor `_` is in the value. -/
theorem text_searched (types : ColumnTypes) (now : Timestamp) (texts : column.type = .text)
    (searches : operation ∈ textSearches) (any : Text.isBlankText value = false) :
    ∃ text, CallColumn.ofName? column.name = some (.text text) ∧
      (∀ calls, (∃ chosen, Finds types now (wholeColumn column operation value) calls chosen) ↔
        calls = [] ∨ (operation.patternOf value).utf8ByteSize ≤ sizeLimit) ∧
      (∀ calls chosen, Finds types now (wholeColumn column operation value) calls chosen →
        chosen.Sublist calls ∧ ∀ call ∈ calls, call ∈ chosen ↔ ∃ t, call.texts text = some t ∧
          Spells (readable (operation.patternOf value)) (readable t)) ∧
      (Whole value →
        ((∀ t, Spells (readable (operation.patternOf value)) (readable t) ↔
            operation.Hits value.toList (readable t)) ↔ ∀ p ∈ value.toList, Plain p)) := by
  obtain ⟨text, known⟩ := exists_textColumn texts
  refine ⟨text, known, ?_, ?_, ?_⟩
  · intro calls
    simp only [finds_textSearch_iff texts searches any, ← CallTable.accepts_iff]
    exact accepts_pattern_iff known
  · intro calls chosen found
    have selected := (finds_textSearch_iff texts searches any).mp found
    exact ⟨CallTable.select_sublist selected, fun call inside ↦
      mem_select_pattern_iff known selected inside⟩
  · intro whole
    constructor
    · intro law p inside
      by_contra wild
      obtain ⟨t, -, spells, misses⟩ := exists_spells_not_hits searches whole ⟨p, inside, wild⟩
      exact misses ((law t).mp spells)
    · intro plain t
      exact spells_patternOf_iff searches whole plain

def namedCall (name : String) : Call where
  id := 1
  agent := "a"
  createdAt := .startOf default
  texts
    | .callId => some name
    | _ => none
  times _ := none
  numbers _ := none
  payloads _ := none

theorem text_searched_underscore :
    ∃ chosen, Finds [] (.startOf default) (wholeColumn .callId .contains "a_b")
      [namedCall "axb", namedCall "ab"] chosen ∧ namedCall "axb" ∈ chosen ∧
        namedCall "ab" ∉ chosen := by
  have searches : Operation.contains ∈ textSearches := by decide
  have any : Text.isBlankText "a_b" = false := by decide
  have searched := @text_searched .callId .contains "a_b" [] (.startOf default) rfl searches any
  obtain ⟨text, known, answers, finds, -⟩ := searched
  obtain rfl : text = .callId := by
    have column : CallColumn.ofName? Column.callId.name = some (.text .callId) := by decide
    cases known.symm.trans column
    rfl
  obtain ⟨chosen, found⟩ := (answers [namedCall "axb", namedCall "ab"]).mpr (.inr (by decide))
  obtain ⟨-, mem_iff⟩ := finds _ _ found
  refine ⟨chosen, found, ?_, ?_⟩
  · exact (mem_iff (namedCall "axb") (.head _)).mpr ⟨"axb", rfl, matchChars_iff.mp (by decide)⟩
  · intro inside
    obtain ⟨t, same, spells⟩ := (mem_iff (namedCall "ab") (.tail _ (.head _))).mp inside
    cases same
    exact absurd (matchChars_iff.mpr spells) (by decide)

/-- A call whose id does not contain what is searched for, and is found all the same. -/
theorem underscore_not_taken_literally :
    Finds [] (.startOf default) (wholeColumn .callId .contains "a_b") [namedCall "axb"]
        [namedCall "axb"] ∧
      (namedCall "axb").texts .callId = some "axb" ∧
      ¬Operation.contains.Hits "a_b".toList "axb".toList := by
  refine ⟨⟨_, rfl, rfl⟩, rfl, ?_⟩
  unfold Operation.Hits
  decide

end Compile

end CallSearch
