import CallSearch.Proofs.Compile.Parts
import CallSearch.Proofs.Compile.Translated
import CallSearch.Proofs.Search.Render
import CallSearch.Proofs.Store.Key

namespace CallSearch

open Expression (render)

namespace Compile

variable {types : ColumnTypes} {now : Timestamp} {column : Column} {key value : String}
  {calls : List Call}

theorem exists_payloadColumn (json : column.type = .json) :
    ∃ payload : PayloadColumn, payload.name = column.name ∧
      CallColumn.ofName? column.name = some (.payload payload) := by
  cases column with
  | metadata => exact ⟨.metadata, rfl, by decide⟩
  | transcription => exact ⟨.transcription, rfl, by decide⟩
  | metrics => exact ⟨.metrics, rfl, by decide⟩
  | _ => cases json

theorem eq_metadata {payload : PayloadColumn}
    (known : CallColumn.ofName? Column.metadata.name = some (.payload payload)) :
    payload = .metadata := by
  have column : CallColumn.ofName? Column.metadata.name = some (.payload .metadata) := by decide
  cases known.symm.trans column
  rfl

def memberPredicate (column : Column) (key value : String) : Predicate :=
  ⟨render ⟨column.name, key, false⟩, .equals, .text value⟩

theorem condition_memberEquals (types : ColumnTypes) (now : Timestamp) {operation : Operation}
    (equals : operation ∈ [Operation.equals, .jsonEquals]) (json : column.type = .json)
    (nonempty : key ≠ "") (any : Text.isBlankText value = false) :
    condition types now (ofMember column key operation value) =
      .ok [memberPredicate column key value] := by
  have listed : operation ∈ ColumnType.json.operations ∨ operation.reachesMembers := by
    rcases List.mem_pair.mp equals with rfl | rfl <;> decide
  rw [condition_ofMember listed json nonempty any]
  rcases List.mem_pair.mp equals with rfl | rfl <;> rfl

theorem select_member (json : column.type = .json) (name : IsName key) (value : String)
    (calls : List Call) :
    ∃ payload, CallColumn.ofName? column.name = some (.payload payload) ∧
      ∃ chosen, CallTable.select (some calls) [memberPredicate column key value] = .ok chosen ∧
        ∀ call, call ∈ chosen ↔
          call ∈ calls ∧ ((call.payloads payload).getD .null).memberText? [key] = some value := by
  obtain ⟨payload, same, known⟩ := exists_payloadColumn json
  refine ⟨payload, known, ?_⟩
  have reads := read_key name.nonempty payload
  rw [same, name.keyPath_eq, name.endsNumeric_eq] at reads
  have translated : Test.ofPredicates [memberPredicate column key value] =
      .ok [.compare ⟨.payload payload, some [key], false⟩ .equal (.text value)] :=
    Test.ofPredicates_single (Test.ofPredicate_text reads rfl rfl)
  obtain ⟨chosen, selected, mem_iff⟩ := CallTable.select_answered translated
    (by simp) (by simp [Test.isBindable]) (by simp [Test.holds]) calls
  refine ⟨chosen, selected, ?_⟩
  intro call
  have cell : Source.cell ⟨.payload payload, some [key], false⟩ call =
      (((call.payloads payload).getD .null).memberText? [key]).elim .null .text := rfl
  rw [mem_iff]
  simp only [List.forall_mem_singleton, Test.holds, cell, Except.ok.injEq, Relation.equal_text_iff]

section Term

/-- Whether a value can stand in a search as it is, as what a field equals. -/
structure IsBare (value : String) : Prop where
  plain : ∀ d ∈ value.toList, Text.isBlank d = false ∧ Search.isQuote d = false
  unsigned : ¬['>'] <+: value.toList ∧ ¬['<'] <+: value.toList ∧ ¬['!', '='] <+: value.toList

/-- A term of a search that a member equals a value. -/
def memberTerm (column : Column) (key value : String) : String :=
  column.name ++ "." ++ key ++ ":" ++ value

theorem sayable_memberEquals (column : Column) (name : IsName key)
    (word : ∀ d ∈ key.toList, Text.isWordChar d) (bare : IsBare value) :
    (ofMember column key .equals value).Sayable where
  identifier := by
    change column.name.toList.head?.any _ ∧ ∀ d ∈ column.name.toList, _
    rw [← List.all_eq_true]
    cases column <;> decide
  name := by
    intro subkey same
    cases same
    exact ⟨name.nonempty, word⟩
  compares := by
    change "equals" ∈ _
    decide
  spaced := by
    intro d inside
    obtain ⟨solid, quote⟩ := bare.plain d inside
    exact ⟨quote, fun blank ↦ absurd (blank.symm.trans solid) (by decide)⟩
  unsigned := fun _ _ ↦ bare.unsigned

theorem render_memberEquals (column : Column) (name : IsName key) (bare : IsBare value) :
    String.ofList (Search.render [ofMember column key .equals value]) =
      memberTerm column key value := by
  have some : key.isEmpty = false := by simpa using name.nonempty
  have space : ' ' ∉ value.toList := fun inside ↦ absurd (bare.plain _ inside).1 (by decide)
  have plain : Search.renderValue value.toList = value.toList := by
    simp [Search.renderValue, space]
  rw [← String.toList_inj, String.toList_ofList]
  simp [Search.render, Search.renderCondition, ofMember, some, plain, memberTerm,
    Search.comparisonOf, Search.Comparison.sign, Operation.name]

theorem parse_memberTerm (column : Column) (name : IsName key)
    (word : ∀ d ∈ key.toList, Text.isWordChar d) (bare : IsBare value) (scope : Search.Scope)
    (exact : Bool) (supply : IdSupply) :
    ∃ id rule remaining, (Search.parse scope exact (memberTerm column key value)).run supply =
        (⟨id, .and, [rule], []⟩, remaining) ∧
      rule.toCondition = ofMember column key .equals value := by
  have sayable : ∀ c ∈ [ofMember column key .equals value], c.Sayable := by
    intro c among
    rw [List.mem_singleton.mp among]
    exact sayable_memberEquals column name word bare
  rw [← render_memberEquals column name bare, Search.parse, Search.outline_render scope exact sayable]
  exact ⟨_, _, _, rfl, rfl⟩

end Term

def digits (n : Int) : String := String.ofList (Json.intChars n)

/-- What the store finds for equality of a member with a value, which is the same for a search by
term: the calls in which the store reads the value as the text of the member. This is the text that
the member is, and the decimal digits of a whole number, but only if this fits into 64 bits. Where a
name with a NUL is taken for that of the member, another value may be read. -/
theorem member_equals (types : ColumnTypes) (now : Timestamp) (json : column.type = .json)
    (nonempty : key ≠ "") (word : ∀ d ∈ key.toList, Text.isWordChar d)
    (any : Text.isBlankText value = false) (calls : List Call) :
    ∃ payload, CallColumn.ofName? column.name = some (.payload payload) ∧
      ∃ chosen, Finds types now (ofMember column key .jsonEquals value) calls chosen ∧
        (IsBare value → ∀ scope exact supply, ∃ group remaining compilation,
          (Search.parse scope exact (memberTerm column key value)).run supply =
              (group, remaining) ∧
            rules types now (Forest.rules [group]) = .ok compilation ∧ compilation.dropped = [] ∧
            CallTable.select (some calls) compilation.predicates = .ok chosen) ∧
        ∀ call ∈ calls,
          (call ∈ chosen ↔
            ((call.payloads payload).getD .null).memberText? [key] = some value) ∧
          ∀ document, call.payloads payload = some document → document.Unmistaken key →
            (∀ text, document.member? key = some (.str text) → (call ∈ chosen ↔ value = text)) ∧
            ∀ n, document.member? key = some (.int n) →
              ((Number.int n).fits → (call ∈ chosen ↔ value = digits n)) ∧
              (¬(Number.int n).fits → value = digits n → call ∉ chosen) := by
  have name := IsName.of_word nonempty word
  have plain := isPlainName_word word
  obtain ⟨payload, known, chosen, selected, mem_iff⟩ := select_member json name value calls
  have found : Finds types now (ofMember column key .jsonEquals value) calls chosen :=
    ⟨_, condition_memberEquals types now (by decide) json nonempty any, selected⟩
  refine ⟨payload, known, chosen, found, ?_, ?_⟩
  · intro bare scope exact supply
    obtain ⟨id, rule, remaining, parsed, same⟩ :=
      parse_memberTerm column name word bare scope exact supply
    have compiled : condition types now rule.toCondition = .ok [memberPredicate column key value] := by
      rw [same]
      exact condition_memberEquals types now (by decide) json nonempty any
    have alone : Forest.rules [⟨id, .and, [rule], []⟩] = [rule] := rfl
    refine ⟨_, remaining, ⟨[memberPredicate column key value], []⟩, parsed, ?_, rfl, selected⟩
    rw [alone, rules, compiled]
    rfl
  · intro call inside
    have read : call ∈ chosen ↔
        ((call.payloads payload).getD .null).memberText? [key] = some value := by
      rw [mem_iff]
      exact and_iff_right inside
    refine ⟨read, ?_⟩
    intro document holds unmistaken
    rw [holds, Option.getD_some] at read
    constructor
    · intro text held
      have own : ((some (Json.str text)).bind Json.storeText?) = some text := rfl
      rw [read, unmistaken.memberText?_eq plain, held, own, Option.some_inj, eq_comm]
    · intro n held
      have own : ((some (Json.int n)).bind Json.storeText?) = some (Number.ofInt n).storeText := rfl
      rw [unmistaken.memberText?_eq plain, held, own, Option.some_inj] at read
      constructor
      · intro fits
        rw [read, Number.storeText_ofInt_iff.mpr fits, digits, eq_comm]
      · rintro large rfl
        rw [read]
        exact mt Number.storeText_ofInt_iff.mp large

def memberCall (key : String) (value : Json) : Call where
  id := 1
  agent := "a"
  createdAt := .startOf default
  texts _ := none
  times _ := none
  numbers _ := none
  payloads
    | .metadata => some (.obj [(key, value)])
    | _ => none

theorem member_equals_digits :
    ∃ chosen, Finds [] (.startOf default) (ofMember .metadata "n_1" .jsonEquals "-42")
        [memberCall "n_1" (.int (-42)), memberCall "n_1" (.str "-42.0")] chosen ∧
      memberCall "n_1" (.int (-42)) ∈ chosen ∧ memberCall "n_1" (.str "-42.0") ∉ chosen := by
  have word : ∀ d ∈ "n_1".toList, Text.isWordChar d := List.all_eq_true.mp (by decide +kernel)
  obtain ⟨payload, known, chosen, found, -, law⟩ := @member_equals .metadata "n_1" "-42" []
    (.startOf default) rfl (by decide) word (by decide)
    [memberCall "n_1" (.int (-42)), memberCall "n_1" (.str "-42.0")]
  obtain rfl := eq_metadata known
  have unmistaken (value : Json) : (Json.obj [("n_1", value)]).Unmistaken "n_1" :=
    Json.unmistaken_single (by decide) value
  refine ⟨chosen, found, ?_, ?_⟩
  · obtain ⟨-, members⟩ := law (memberCall "n_1" (.int (-42))) (.head _)
    have whole := (members _ rfl (unmistaken _)).2 (-42) rfl
    exact (whole.1 (by decide)).mpr (by cbv)
  · obtain ⟨-, members⟩ := law (memberCall "n_1" (.str "-42.0")) (.tail _ (.head _))
    exact mt ((members _ rfl (unmistaken _)).1 "-42.0" rfl).mp (by decide)

/-- A call with a number as its member that is not found by its digits, as it does not fit into
64 bits. -/
theorem large_member_not_found :
    digits 100000000000000000000 = "100000000000000000000" ∧
      Finds [] (.startOf default) (ofMember .metadata "n" .jsonEquals "100000000000000000000")
        [memberCall "n" (.int 100000000000000000000)] [] := by
  have written : digits 100000000000000000000 = "100000000000000000000" := by cbv
  have word : ∀ d ∈ "n".toList, Text.isWordChar d := List.all_eq_true.mp (by decide +kernel)
  obtain ⟨payload, known, chosen, selected, mem_iff⟩ := @select_member .metadata "n" rfl
    (.of_word (by decide) word) (digits 100000000000000000000)
    [memberCall "n" (.int 100000000000000000000)]
  have large : ¬(Number.int 100000000000000000000).fits := by decide
  have nothing : chosen = [] := by
    rw [List.eq_nil_iff_forall_not_mem]
    intro call found
    obtain ⟨inside, read⟩ := (mem_iff call).mp found
    rw [List.mem_singleton.mp inside] at read
    obtain rfl := eq_metadata known
    have stored : (Json.obj [("n", .int 100000000000000000000)]).memberText? ["n"] =
        some (Number.ofInt 100000000000000000000).storeText :=
      (Json.unmistaken_single (by decide) _).memberText?_eq (isPlainName_word word)
    exact large (Number.storeText_ofInt_iff.mp (Option.some.inj (stored.symm.trans read)))
  rw [nothing, written] at selected
  exact ⟨written, _, condition_memberEquals [] _ (by decide) rfl (by decide) (by decide), selected⟩

end Compile

end CallSearch
