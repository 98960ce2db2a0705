import CallSearch.Proofs.Anomaly.Charge
import CallSearch.Proofs.Compile.MemberText
import CallSearch.Proofs.Compile.Numeric

namespace CallSearch

open Expression (render)

section Cast

/-- The number that the store casts a text to: what it reads in the written number that the text
begins with, behind blanks, or else zero. -/
inductive LeadsWith : List Char → Double → Prop
  | number {before cs after : List Char} {literal : Literal}
      (blank : ∀ c ∈ before, Text.isPlainBlank c) (written : WrittenNumber Text.isAsciiDigit cs)
      (stops : ∀ c ∈ after.head?, continuesNumber c = false)
      (read : Literal.scan cs = some (literal, [])) :
      LeadsWith (before ++ (cs ++ after)) literal.toStored
  | nothing {cs : List Char} (none : ¬BeginsWithNumber (cs.dropWhile Text.isPlainBlank)) :
      LeadsWith cs .zero

/-- The number that the store casts a member to; null and what is not a number give none. -/
inductive CastsTo : Json → Double → Prop
  | bool (b : Bool) : CastsTo (.bool b) (Double.ofInt (if b then 1 else 0))
  | int {n : ℤ} (fits : (Number.int n).fits) : CastsTo (.int n) (Double.ofInt n)
  | large {n : ℤ} (large : (Number.int n).fits = false) :
      CastsTo (.int n) (Cell.leadingDouble (Number.ofInt n).storeText)
  | real {x : Double} {text : String} (said : (Json.real x).storeText? = some text) :
      CastsTo (.real x) (Cell.leadingDouble text)
  | str (s : String) : CastsTo (.str s) (Cell.leadingDouble s)
  | arr (items : List Json) : CastsTo (.arr items) .zero
  | obj (members : List (String × Json)) : CastsTo (.obj members) .zero

/-- Members that the store casts to the numbers that they are meant as: like charges, and texts of
whole numbers also with blanks around them. -/
inductive PlainMember : Json → Prop
  | plain {value : Json} (plain : PlainCharge value) : PlainMember value
  | padded {before cs after : List Char} (blank : ∀ c ∈ before, Text.isPlainBlank c)
      (written : WrittenWhole cs) (blank' : ∀ c ∈ after, Text.isPlainBlank c) :
      PlainMember (.str (String.ofList (before ++ (cs ++ after))))

variable {before cs after : List Char} {value : Json} {n : Double} {s : String}

theorem dropWhile_padded (blank : ∀ c ∈ before, Text.isPlainBlank c)
    (written : WrittenNumber Text.isAsciiDigit cs) (after : List Char) :
    (before ++ (cs ++ after)).dropWhile Text.isPlainBlank = cs ++ after :=
  (span_append blank (head?_append_kept written.ne_nil fun _ hc ↦ (written.tight hc).1)).2

theorem LeadsWith.leadingDouble_eq (leads : LeadsWith cs n) :
    Cell.leadingDouble (String.ofList cs) = n := by
  rw [Cell.leadingDouble, String.toList_ofList]
  cases leads with
  | number blank written stops read =>
    rw [dropWhile_padded blank written, scan_followed stops read]
  | nothing none =>
    cases scanned : Literal.scan (cs.dropWhile Text.isPlainBlank) with
    | none => rfl
    | some found => exact absurd (begins_of_scan scanned) none

theorem stops_of_blank (blank : ∀ c ∈ after, Text.isPlainBlank c) :
    ∀ c ∈ after.head?, continuesNumber c = false := by
  intro c first
  have inside := blank c (List.mem_of_mem_head? first)
  rw [Bool.eq_false_iff]
  intro continues
  simp only [continuesNumber, Bool.or_eq_true, beq_iff_eq] at continues
  rcases continues with ((digit | rfl) | rfl) | rfl
  · exact absurd inside (by simp [(isAsciiDigit_tight digit).1])
  all_goals exact absurd inside (by decide)

theorem plainChar_blank (blank : ∀ c ∈ cs, Text.isPlainBlank c) : cs.map Double.plainChar = cs := by
  have same : ∀ c ∈ cs, Double.plainChar c = c := by
    intro c inside
    have low : c.toNat < 127 := by
      have plain := blank c inside
      simp only [Text.isPlainBlank, Bool.or_eq_true, beq_iff_eq, Bool.and_eq_true, decide_eq_true_eq,
        eq_space_iff] at plain
      omega
    rw [Double.plainChar, if_pos low]
  rw [List.map_congr_left same, List.map_id']

theorem ofText?_padded (blank : ∀ c ∈ before, Text.isPlainBlank c)
    (written : WrittenNumber Text.isAsciiDigit cs) (blank' : ∀ c ∈ after, Text.isPlainBlank c) :
    Double.ofText? (String.ofList (before ++ (cs ++ after))) = Double.ofText? (String.ofList cs) := by
  have tight : ∀ c ∈ cs, Text.isPlainBlank c = false := fun c hc ↦ (written.tight hc).1
  have stripped := stripChars_between blank written.ne_nil tight blank'
  have none : ∀ c ∈ [], Text.isPlainBlank c := fun c hc ↦ absurd hc List.not_mem_nil
  have alone := stripChars_between none written.ne_nil tight none
  rw [List.nil_append, List.append_nil] at alone
  simp only [Double.ofText?, String.toList_ofList, List.map_append, plainChar_blank blank,
    plainChar_blank blank', plainChar_written written, stripped, alone]

theorem leadingDouble_bracket {c : Char} (bracket : c ∈ ['[', '\x7b']) (rest : List Char) :
    Cell.leadingDouble (String.ofList (c :: rest)) = .zero := by
  refine LeadsWith.leadingDouble_eq (.nothing ?_)
  have solid : Text.isPlainBlank c = false := by
    rcases List.mem_pair.mp bracket with rfl | rfl <;> decide
  rw [List.dropWhile_cons_of_neg (by simp [solid])]
  rintro ⟨number, after, same, written⟩
  obtain ⟨d, tail, rfl⟩ := List.exists_cons_of_ne_nil written.ne_nil
  cases same
  have inside := written.mem List.mem_cons_self
  revert inside
  rcases List.mem_pair.mp bracket with rfl | rfl <;> decide

theorem CastsTo.cast_eq (casts : CastsTo value n) :
    value.storeText?.map Cell.leadingDouble = some n := by
  cases casts with
  | bool b =>
    cases b with
    | true => exact congrArg some (leadingDouble_whole (n := 1) (by decide))
    | false => exact congrArg some (leadingDouble_whole (n := 0) (by decide))
  | int fits => exact cast_int fits
  | large => rfl
  | real said => rw [said, Option.map_some]
  | str s => rfl
  | arr items => exact congrArg some (leadingDouble_bracket (by decide) _)
  | obj members => exact congrArg some (leadingDouble_bracket (by decide) _)

theorem exists_castsTo (some : ¬value.IsNothing) : ∃ n, CastsTo value n := by
  cases value with
  | null => exact absurd trivial some
  | bool b => exact ⟨_, .bool b⟩
  | int n =>
    cases fits : (Number.int n).fits with
    | true => exact ⟨_, .int fits⟩
    | false => exact ⟨_, .large fits⟩
  | real x =>
    rw [← Json.storeText?_eq_none_iff] at some
    obtain ⟨text, said⟩ := Option.ne_none_iff_exists'.mp some
    exact ⟨_, .real said⟩
  | str s => exact ⟨_, .str s⟩
  | arr items => exact ⟨_, .arr items⟩
  | obj members => exact ⟨_, .obj members⟩

theorem castsTo_iff : CastsTo value n ↔ value.storeText?.map Cell.leadingDouble = some n := by
  refine ⟨CastsTo.cast_eq, fun cast ↦ ?_⟩
  obtain ⟨text, said, -⟩ := Option.map_eq_some_iff.mp cast
  have something : ¬value.IsNothing := by
    rw [← Json.storeText?_eq_none_iff, said]
    exact Option.some_ne_none text
  obtain ⟨m, casts⟩ := exists_castsTo something
  cases casts.cast_eq.symm.trans cast
  exact casts

theorem PlainMember.read_alike (plain : PlainMember value) {number : Option Double}
    (read : value.toDouble? = .ok number) : value.storeText?.map Cell.leadingDouble = number := by
  cases plain with
  | plain plain => exact plain.read_alike read
  | @padded before cs after blank whole blank' =>
    have written := whole.written
    obtain ⟨literal, scanned⟩ := scan_eq written
    rw [Json.toDouble?, ofText?_padded blank written blank', whole.ofText?_eq,
      leadingDouble_written written scanned] at read
    cases read
    exact congrArg some
      (LeadsWith.number blank written (stops_of_blank blank') scanned).leadingDouble_eq

end Cast

namespace Compile

variable {types : ColumnTypes} {now : Timestamp} {column : Column} {operation : Operation}
  {key value : String} {x n : Double} {calls : List Call}

/-- Whether a number stands to a bound as a condition on members asks. -/
def Admits : Operation → Double → Double → Prop
  | .jsonGreaterThan, n, x => (Number.real x).lt (.real n)
  | .jsonLessThan, n, x => (Number.real n).lt (.real x)
  | _, _, _ => False

theorem isBlankText_of_leadingNumber (read : leadingNumber value = .ok (some x)) :
    Text.isBlankText value = false := by
  by_contra blank
  rw [Bool.not_eq_false, Text.isBlankText, List.all_eq_true] at blank
  have all : value.toList.takeWhile Text.isBlank = value.toList :=
    List.takeWhile_eq_self_iff.mpr blank
  have nothing : numberPart? value.toList = none := by
    simp [numberPart?, all, mantissaPart]
  rw [leadingNumber, nothing] at read
  cases read

def castPredicate (column : Column) (key : String) (operator : Operator) (value : Value) :
    Predicate :=
  ⟨render ⟨column.name, key, true⟩, operator, value⟩

def castSource (payload : PayloadColumn) (key : String) : Source :=
  ⟨.payload payload, some [key], true⟩

theorem reads_cast {payload : PayloadColumn}
    (known : CallColumn.ofName? column.name = some (.payload payload)) (name : IsName key) :
    Source.Reads (render ⟨column.name, key, true⟩) (castSource payload key) := by
  have identifier : Expression.isIdentifier column.name.toList := by cases column <;> decide
  have some : key.isEmpty = false := by simpa using name.nonempty
  refine ⟨_, Expression.parse_member_numeric identifier name.nonempty, ?_⟩
  simp only [Source.ofExpression, known, some, Bool.false_eq_true, if_false, Text.split,
    Text.splitChars_free name.undotted, List.map_singleton, String.ofList_toList]
  rfl

theorem condition_casts (compares : operation ∈ [Operation.jsonGreaterThan, .jsonLessThan])
    (json : column.type = .json) (nonempty : key ≠ "") (any : Text.isBlankText value = false)
    {number : Option Double} (read : leadingNumber value = .ok number) :
    ∃ operator : Operator, ∃ relation, operator.order? = some relation ∧
      (∀ n x, relation.holds (.number (.real n)) (.number (.real x)) ↔ Admits operation n x) ∧
      condition types now (ofMember column key operation value) =
        .ok [castPredicate column key operator ((number.map (.number ∘ .real)).getD .null)] := by
  have listed : operation ∈ ColumnType.json.operations ∨ operation.reachesMembers := by
    rcases List.mem_pair.mp compares with rfl | rfl <;> decide
  rw [condition_ofMember listed json nonempty any]
  rcases List.mem_pair.mp compares with rfl | rfl
  · refine ⟨.above, .above, rfl, fun n x ↦ .rfl, ?_⟩
    change numericComparison _ _ = _
    rw [numericComparison, ofMember, read]
    rfl
  · refine ⟨.below, .below, rfl, fun n x ↦ .rfl, ?_⟩
    change numericComparison _ _ = _
    rw [numericComparison, ofMember, read]
    rfl

theorem cell_cast (payload : PayloadColumn) (key : String) (call : Call) :
    (castSource payload key).cell call =
      ((((call.payloads payload).getD .null).memberText? [key]).map Cell.leadingDouble).elim .null
        (.number ∘ .real) := by
  have plain : (castSource payload key).plainCell call =
      (((call.payloads payload).getD .null).memberText? [key]).elim .null .text := rfl
  have numeric : (castSource payload key).numeric = true := rfl
  rw [Source.cell, if_pos numeric, plain]
  cases ((call.payloads payload).getD .null).memberText? [key] with
  | none => rfl
  | some text =>
    change Cell.ofDouble (Cell.leadingDouble text) = .number (.real (Cell.leadingDouble text))
    rw [Cell.ofDouble, if_neg (by simp [Cell.isNan_leadingDouble])]

theorem finds_casts (types : ColumnTypes) (now : Timestamp)
    (compares : operation ∈ [Operation.jsonGreaterThan, .jsonLessThan]) {payload : PayloadColumn}
    (known : CallColumn.ofName? column.name = some (.payload payload)) (json : column.type = .json)
    (name : IsName key) (read : leadingNumber value = .ok (some x)) (calls : List Call) :
    ∃ chosen, Finds types now (ofMember column key operation value) calls chosen ∧
      ∀ call ∈ calls, call ∈ chosen ↔
        ∃ n, (((call.payloads payload).getD .null).memberText? [key]).map Cell.leadingDouble =
          some n ∧ Admits operation n x := by
  obtain ⟨operator, relation, order, holds_iff, compiled⟩ := @condition_casts types now _ _ _ _
    compares json name.nonempty (isBlankText_of_leadingNumber read) _ read
  have compared : operator.relation? = some relation := by
    cases operator <;> cases order <;> rfl
  have translated : Test.ofPredicates
      [castPredicate column key operator (((some x).map (.number ∘ .real)).getD .null)] =
        .ok [.compare (castSource payload key) relation (.number (.real x))] :=
    Test.ofPredicates_single (Test.ofPredicate_number (reads_cast known name) compared _)
  obtain ⟨chosen, selected, mem_iff⟩ := CallTable.select_answered translated
    (by simp) (by simp [Test.isBindable, Number.fits]) (by simp [Test.holds]) calls
  refine ⟨chosen, ⟨_, compiled, selected⟩, ?_⟩
  intro call inside
  rw [mem_iff, and_iff_right inside]
  simp only [List.forall_mem_singleton, Test.holds, Except.ok.injEq, cell_cast]
  cases (((call.payloads payload).getD .null).memberText? [key]).map Cell.leadingDouble with
  | none => simp [Relation.not_holds_null]
  | some n => simpa using holds_iff n x

theorem finds_none (types : ColumnTypes) (now : Timestamp)
    (compares : operation ∈ [Operation.jsonGreaterThan, .jsonLessThan]) {payload : PayloadColumn}
    (known : CallColumn.ofName? column.name = some (.payload payload)) (json : column.type = .json)
    (name : IsName key) (any : Text.isBlankText value = false) (read : leadingNumber value = .ok none)
    (calls : List Call) : Finds types now (ofMember column key operation value) calls [] := by
  obtain ⟨operator, relation, order, -, compiled⟩ :=
    @condition_casts types now _ _ _ _ compares json name.nonempty any _ read
  have translated : Test.ofPredicates [castPredicate column key operator .null] = .ok [.never] :=
    Test.ofPredicates_single (Test.ofPredicate_never (reads_cast known name) order)
  have selected : CallTable.select (some calls) [castPredicate column key operator .null] =
      .ok [] := by
    rw [CallTable.select, Test.ofQuery_of_short translated (by simp)]
    rfl
  exact ⟨_, compiled, selected⟩

/-- What the store finds for a comparison of a member with the number that a value begins with: the
calls in which it casts the member to a number that is above or below. So a call is never found
without a member, by null and by what is not a number, and by a member that is a plain number exactly
if this is above or below. All other members count as well: true and false as one and zero, a text as
the number that it begins with or else as zero, and arrays and objects as zero. A value that begins
with no number finds nothing, and a blank one is refused. Where a name with a NUL is taken for that of
the member, another value may be read. -/
theorem member_compares (types : ColumnTypes) (now : Timestamp) (json : column.type = .json)
    (nonempty : key ≠ "") (word : ∀ d ∈ key.toList, Text.isWordChar d)
    (compares : operation ∈ [Operation.jsonGreaterThan, .jsonLessThan]) (value : String)
    (calls : List Call) :
    ∃ payload, CallColumn.ofName? column.name = some (.payload payload) ∧
      (Text.isBlankText value → condition types now (ofMember column key operation value) =
        .error (.fault (.valueMissing operation.name))) ∧
      (Text.isBlankText value = false → leadingNumber value = .ok none →
        Finds types now (ofMember column key operation value) calls []) ∧
      ∀ x, leadingNumber value = .ok (some x) →
        ∃ chosen, Finds types now (ofMember column key operation value) calls chosen ∧
          ∀ call ∈ calls,
            (call ∈ chosen ↔ ∃ n,
              (((call.payloads payload).getD .null).memberText? [key]).map Cell.leadingDouble =
                some n ∧ Admits operation n x) ∧
            ∀ document, call.payloads payload = some document → document.Unmistaken key →
              (call ∈ chosen ↔ ∃ member n, document.member? key = some member ∧
                CastsTo member n ∧ Admits operation n x) ∧
              (∀ member number, document.member? key = some member → PlainMember member →
                member.toDouble? = .ok number →
                (call ∈ chosen ↔ ∃ n, number = some n ∧ Admits operation n x)) ∧
              ∀ s n, document.member? key = some (.str s) → LeadsWith s.toList n →
                (call ∈ chosen ↔ Admits operation n x) := by
  have name := IsName.of_word nonempty word
  have plain := isPlainName_word word
  obtain ⟨payload, -, known⟩ := exists_payloadColumn json
  refine ⟨payload, known, ?_, fun any read ↦ finds_none types now compares known json name any read
    calls, ?_⟩
  · intro blank
    rcases List.mem_pair.mp compares with rfl | rfl
    · exact condition_blank (by decide) json nonempty rfl blank
    · exact condition_blank (by decide) json nonempty rfl blank
  · intro x read
    obtain ⟨chosen, found, mem_iff⟩ :=
      finds_casts types now compares known json name read calls
    refine ⟨chosen, found, ?_⟩
    intro call inside
    refine ⟨mem_iff call inside, ?_⟩
    intro document holds unmistaken
    have member_iff : call ∈ chosen ↔ ∃ n, ((document.member? key).bind Json.storeText?).map
        Cell.leadingDouble = some n ∧ Admits operation n x := by
      rw [mem_iff call inside, holds, Option.getD_some, unmistaken.memberText?_eq plain]
    refine ⟨?_, ?_, ?_⟩
    · rw [member_iff]
      cases document.member? key with
      | none => simp
      | some member => simp [castsTo_iff]
    · intro member number held plainly read
      rw [member_iff, held, Option.bind_some, plainly.read_alike read]
    · intro s n held leads
      have cast := leads.leadingDouble_eq
      rw [String.ofList_toList] at cast
      rw [member_iff, held]
      simp [Json.storeText?, cast]

def threeAndHalf : Double := .ofBits 0x400c000000000000

def twelve : Double := .ofBits 0x4028000000000000

/-- A number with blanks around it is above the number that a value begins with; null is not. -/
theorem member_compares_padded :
    ∃ chosen, Finds [] (.startOf default) (ofMember .metadata "n_1" .jsonGreaterThan "3.5 days")
        [memberCall "n_1" (.str " 12 "), memberCall "n_1" .null] chosen ∧
      memberCall "n_1" (.str " 12 ") ∈ chosen ∧ memberCall "n_1" .null ∉ chosen := by
  have word : ∀ d ∈ "n_1".toList, Text.isWordChar d := by simp [Text.isWordChar]
  obtain ⟨payload, known, -, -, compared⟩ := @member_compares .metadata .jsonGreaterThan "n_1" []
    (.startOf default) rfl (by decide) word (by decide) "3.5 days"
    [memberCall "n_1" (.str " 12 "), memberCall "n_1" .null]
  obtain rfl := eq_metadata known
  have read : leadingNumber "3.5 days" = .ok (some threeAndHalf) := by decide +kernel
  have meant : (Json.str " 12 ").toDouble? = .ok (some twelve) := by decide +kernel
  have padded : PlainMember (.str " 12 ") := by
    have blank : ∀ c ∈ [' '], Text.isPlainBlank c := by simp [Text.isPlainBlank]
    have same : " 12 " = String.ofList ([' '] ++ (Json.intChars 12 ++ [' '])) := rfl
    rw [same]
    exact .padded blank (WrittenWhole.of_intChars (n := 12) (by decide)) blank
  have unmistaken (value : Json) : (Json.obj [("n_1", value)]).Unmistaken "n_1" :=
    Json.unmistaken_single (by decide) value
  obtain ⟨chosen, found, mem_iff⟩ := compared _ read
  refine ⟨chosen, found, ?_, ?_⟩
  · obtain ⟨-, members⟩ := mem_iff (memberCall "n_1" (.str " 12 ")) (.head _)
    have above := (members _ rfl (unmistaken _)).2.1 _ _ rfl padded meant
    have greater : (Number.real threeAndHalf).lt (.real twelve) := by decide +kernel
    exact above.mpr ⟨twelve, rfl, greater⟩
  · obtain ⟨-, members⟩ := mem_iff (memberCall "n_1" .null) (.tail _ (.head _))
    rw [(members _ rfl (unmistaken _)).1]
    rintro ⟨member, n, held, casts, -⟩
    cases held
    cases casts

def minusOne : Double := .ofInt (-1)

/-- A call with a word as its member is found above a negative number, as the store casts the word to
zero. -/
theorem word_found_as_zero :
    (Json.str "abc").toDouble? = .ok none ∧
      ∃ chosen, Finds [] (.startOf default) (ofMember .metadata "n" .jsonGreaterThan "-1")
          [memberCall "n" (.str "abc")] chosen ∧ memberCall "n" (.str "abc") ∈ chosen := by
  have word : ∀ d ∈ "n".toList, Text.isWordChar d := by simp [Text.isWordChar]
  have known : CallColumn.ofName? Column.metadata.name = some (.payload .metadata) := by decide
  have read : leadingNumber "-1" = .ok (some minusOne) := by decide +kernel
  obtain ⟨chosen, found, mem_iff⟩ := finds_casts [] (.startOf default) (List.mem_pair.mpr (.inl rfl))
    known rfl (.of_word (by decide) word) read [memberCall "n" (.str "abc")]
  have cast : ((Json.obj [("n", .str "abc")]).memberText? ["n"]).map Cell.leadingDouble =
      some .zero := rfl
  have greater : (Number.real minusOne).lt (.real .zero) := by decide +kernel
  exact ⟨rfl, chosen, found, (mem_iff _ List.mem_cons_self).mpr ⟨_, cast, greater⟩⟩

end Compile

end CallSearch
