import CallSearch.Proofs.Compile.Rule

namespace CallSearch

theorem Operation.name_of_ofName? {name : String} {operation : Operation}
    (h : ofName? name = some operation) : operation.name = name := by
  rw [ofName?] at h
  simpa using List.find?_some h

theorem Operation.ofName?_name (operation : Operation) : ofName? operation.name = some operation := by
  cases operation <;> decide

theorem Column.ofName?_name (column : Column) : ofName? column.name = some column := by
  cases column <;> decide

theorem Condition.check_eq {c : Condition} {column : Column}
    (known : Column.ofName? c.column = some column) :
    c.check =
      if c.allowedOn column then (c.checkParts column.type).map fun _ ↦ column
      else .error (.notAllowed c.operation column.type column.name) := by
  simp only [check, known]
  cases c.allowedOn column with
  | false => rfl
  | true => cases c.checkParts column.type <;> rfl

namespace Compile

variable {α β : Type} {types : ColumnTypes} {now : Timestamp} {c : Condition} {column : Column}
  {operation : Operation} {type : ColumnType}

def Supported (x : Except Failure α) : Prop :=
  ∀ fault, x = .error (.fault fault) → fault.isUnsupported = false

@[simp] theorem supported_bind_iff {x : Except Failure α} {f : α → Except Failure β} :
    Supported (x >>= f) ↔ Supported x ∧ ∀ a, x = .ok a → Supported (f a) := by
  cases x with
  | error e => simp [Supported, bind, Except.bind]
  | ok a => simp [Supported, bind, Except.bind]

@[simp] theorem supported_map_iff {x : Except Failure α} {f : α → β} :
    Supported (x.map f) ↔ Supported x := by
  cases x with
  | error e => simp [Supported, Except.map]
  | ok a => simp [Supported, Except.map]

@[simp] theorem supported_mapped_iff {x : Except Failure α} {f : α → β} :
    Supported (f <$> x) ↔ Supported x :=
  supported_map_iff

@[simp] theorem supported_ok (a : α) : Supported (.ok a) := by
  simp [Supported]

@[simp] theorem supported_pure (a : α) : Supported (pure a) :=
  supported_ok a

@[simp] theorem supported_stop (stop : Stop) :
    Supported (.error (.stop stop) : Except Failure α) := by
  simp [Supported]

@[simp] theorem supported_fault_iff {fault : RuleFault} :
    Supported (.error (.fault fault) : Except Failure α) ↔ fault.isUnsupported = false := by
  simp [Supported]

@[simp] theorem supported_dayOr (day? : Option Date) : Supported (dayOr day?) := by
  cases day? <;> simp [dayOr]

@[simp] theorem supported_parseDay (raw : String) : Supported (parseDay now raw) := by
  unfold parseDay
  dsimp only
  split
  · simp
  · split
    · simp
    · split <;> simp [RuleFault.isUnsupported]

@[simp] theorem supported_parseNumber (raw : String) : Supported (parseNumber raw) := by
  simp only [parseNumber]
  generalize (if isWhole raw.toList then _ else _ : Option Number) = number?
  cases number? <;> simp [RuleFault.isUnsupported]

@[simp] theorem supported_parseRange (raw : String) : Supported (parseRange raw) := by
  unfold parseRange
  split
  · split <;> simp [RuleFault.isUnsupported]
  · simp [RuleFault.isUnsupported]

@[simp] theorem supported_comparand (raw : String) : Supported (comparand c type raw) := by
  unfold comparand
  split <;> simp

@[simp] theorem supported_comparison (operator : Operator) :
    Supported (comparison c type operator) := by
  simp [comparison]

@[simp] theorem supported_numericComparison (operator : Operator) :
    Supported (numericComparison c operator) := by
  unfold numericComparison
  split <;> simp

theorem supported_operation (now : Timestamp) (c : Condition) (type : ColumnType)
    (operation : Operation) :
    Supported (operationPredicates now c type operation) := by
  cases operation with
  | contains | startsWith | endsWith | isEmpty | jsonEquals | jsonContains | jsonExists =>
    exact supported_ok _
  | jsonGreaterThan | jsonLessThan => simp [operationPredicates]
  | equals | greaterThan | lessThan | between =>
    simp only [operationPredicates]
    split <;> simp

theorem prepare_eq (known : Column.ofName? c.column = some column) :
    prepare types c =
      match Operation.ofName? c.operation with
      | none => .error (.unknownOperation c.operation)
      | some operation => c.check.map fun column ↦ (operation, column.type) := by
  rw [c.check_eq known]
  unfold prepare resolveType
  cases Operation.ofName? c.operation with
  | none => rfl
  | some operation =>
    simp only [known]
    cases c.allowedOn column with
    | false => rfl
    | true =>
      cases parts : c.checkParts column.type <;>
        simp [parts, bind, Except.bind, pure, Except.pure, Except.map]

theorem condition_eq (known : Column.ofName? c.column = some column)
    (found : Operation.ofName? c.operation = some operation) :
    condition types now c =
      match c.check with
      | .error fault => .error (.fault fault)
      | .ok column => operationPredicates now c column.type operation := by
  simp only [condition, prepare_eq known, found]
  cases c.check <;> rfl

theorem check_unknownOperation (known : Column.ofName? c.column = some column)
    (unknown : Operation.ofName? c.operation = none) :
    c.check = .error (.notAllowed c.operation column.type column.name) := by
  have notAllowed : c.allowedOn column = false := by simp [Condition.allowedOn, unknown]
  rw [c.check_eq known, notAllowed]
  rfl

theorem check_ok (known : Column.ofName? c.column = some column) {checked : Column}
    (h : c.check = .ok checked) : checked = column ∧ c.allowedOn column := by
  rw [c.check_eq known] at h
  cases allowed : c.allowedOn column with
  | false =>
    simp only [allowed] at h
    cases h
  | true =>
    simp only [allowed, if_true] at h
    obtain ⟨-, -, rfl⟩ := ok_map_iff.mp h
    exact ⟨rfl, rfl⟩

/-- A condition on a column as a whole. -/
def wholeColumn (column : Column) (operation : Operation) (value : String) : Condition :=
  ⟨column.name, operation.name, value, none⟩

theorem condition_checked (known : Column.ofName? c.column = some column)
    (found : Operation.ofName? c.operation = some operation) (allowed : c.allowedOn column = true)
    (parts : c.checkParts column.type = .ok ()) :
    condition types now c = operationPredicates now c column.type operation := by
  have checked : c.check = .ok column := by
    rw [Condition.check_eq known, allowed, parts]
    rfl
  rw [condition_eq known found, checked]

theorem condition_wholeColumn {value : String} (listed : operation ∈ column.type.operations)
    (notJson : column.type ≠ .json) (any : Text.isBlankText value = false) :
    condition types now (wholeColumn column operation value) =
      operationPredicates now (wholeColumn column operation value) column.type operation := by
  have found : Operation.ofName? (wholeColumn column operation value).operation = some operation :=
    Operation.ofName?_name operation
  have valued : (wholeColumn column operation value).hasValue = true := by
    simp [Condition.hasValue, wholeColumn, any]
  have whole : (wholeColumn column operation value).hasSubkey = false := rfl
  apply condition_checked (Column.ofName?_name column) found
  · simp [Condition.allowedOn, found, listed]
  · simp [Condition.checkParts, valued, whole, notJson]

/-- A condition on a member of the documents in a column. -/
def ofMember (column : Column) (key : String) (operation : Operation) (value : String) : Condition :=
  ⟨column.name, operation.name, value, some key⟩

theorem condition_blank {key value : String}
    (listed : operation ∈ ColumnType.json.operations ∨ operation.reachesMembers)
    (json : column.type = .json) (nonempty : key ≠ "") (needs : operation.needsValue)
    (blank : Text.isBlankText value) :
    condition types now (ofMember column key operation value) =
      .error (.fault (.valueMissing operation.name)) := by
  have known := Column.ofName?_name column
  have found : Operation.ofName? (ofMember column key operation value).operation = some operation :=
    Operation.ofName?_name operation
  have valued : (ofMember column key operation value).hasValue = false := by
    rw [Condition.hasValue, found]
    simp [ofMember, needs, blank]
  have keyed : (ofMember column key operation value).hasSubkey = true := by
    simp [Condition.hasSubkey, ofMember, nonempty]
  have allowed : (ofMember column key operation value).allowedOn column = true := by
    simpa [Condition.allowedOn, found, json, keyed] using listed
  have checked : (ofMember column key operation value).check =
      .error (.valueMissing operation.name) := by
    rw [Condition.check_eq known, allowed, Condition.checkParts, valued]
    rfl
  rw [condition_eq known found, checked]

theorem condition_ofMember {key value : String}
    (listed : operation ∈ ColumnType.json.operations ∨ operation.reachesMembers)
    (json : column.type = .json) (nonempty : key ≠ "") (any : Text.isBlankText value = false) :
    condition types now (ofMember column key operation value) =
      operationPredicates now (ofMember column key operation value) .json operation := by
  have found : Operation.ofName? (ofMember column key operation value).operation = some operation :=
    Operation.ofName?_name operation
  have valued : (ofMember column key operation value).hasValue = true := by
    simp [Condition.hasValue, ofMember, any]
  have keyed : (ofMember column key operation value).hasSubkey = true := by
    simp [Condition.hasSubkey, ofMember, nonempty]
  rw [← json]
  apply condition_checked (Column.ofName?_name column) found
  · simpa [Condition.allowedOn, found, json, keyed] using listed
  · simp [Condition.checkParts, valued, json, keyed]

theorem comparand_text (other : type ≠ .number) (raw : String) :
    comparand c type raw = .ok (.text raw) := by
  simp [comparand, other]

theorem single_of_text (now : Timestamp) (c : Condition)
    (listed : operation ∈ ColumnType.text.operations) :
    ∃ p, operationPredicates now c .text operation = .ok [p] := by
  have equals : comparand c .text c.value = .ok (.text c.value) := comparand_text (by decide) _
  simp only [ColumnType.operations, List.mem_cons, List.not_mem_nil, or_false] at listed
  rcases listed with rfl | rfl | rfl | rfl | rfl
  · exact ⟨_, by rw [operationPredicates, comparison, equals]; rfl⟩
  · exact ⟨_, rfl⟩
  · exact ⟨_, rfl⟩
  · exact ⟨_, rfl⟩
  · exact ⟨_, rfl⟩

theorem single_of_json (now : Timestamp) (c : Condition)
    (listed : operation ∈ ColumnType.json.operations ∨ operation.reachesMembers)
    (notAbove : operation ≠ .jsonGreaterThan) (notBelow : operation ≠ .jsonLessThan) :
    ∃ p, operationPredicates now c .json operation = .ok [p] := by
  have compared : comparand c .json c.value = .ok (.text c.value) := comparand_text (by decide) _
  cases operation with
  | contains | startsWith | jsonEquals | jsonContains | jsonExists => exact ⟨_, rfl⟩
  | equals | greaterThan | lessThan =>
    exact ⟨_, by rw [operationPredicates, comparison, compared]; rfl⟩
  | jsonGreaterThan => exact absurd rfl notAbove
  | jsonLessThan => exact absurd rfl notBelow
  | endsWith | isEmpty | between => exact absurd listed (by decide)

theorem single_of_allowed (now : Timestamp)
    (found : Operation.ofName? c.operation = some operation) (allowed : c.allowedOn column)
    (plain : column.type = .text ∨
      column.type = .json ∧ c.operation ≠ "json_greater_than" ∧ c.operation ≠ "json_less_than") :
    ∃ p, operationPredicates now c column.type operation = .ok [p] := by
  have named := Operation.name_of_ofName? found
  simp only [Condition.allowedOn, found, Bool.or_eq_true, List.contains_iff_mem] at allowed
  rcases plain with text | ⟨json, notAbove, notBelow⟩
  · rw [text] at allowed ⊢
    exact single_of_text now c (allowed.resolve_right (by simp))
  · rw [json] at allowed ⊢
    refine single_of_json now c (allowed.imp_right fun h ↦ ?_) ?_ ?_
    · exact (Bool.and_eq_true_iff.mp h).2
    · rintro rfl
      exact notAbove named.symm
    · rintro rfl
      exact notBelow named.symm

/-- For a rule on a column of the registry, the compiler refuses the operation exactly if the check
does; a rule with another fault has the same fault, and so the same message, in both; and a rule
that passes the check gives one predicate if it is on texts, or on documents and does not compare
their members as numbers. -/
theorem check_agrees (catalog : Catalog) (now : Timestamp) (rule : Rule)
    (known : (Column.ofName? rule.column).isSome) :
    ((∃ fault, condition (columnTypes catalog) now rule.toCondition = .error (.fault fault) ∧
        fault.isUnsupported) ↔ ∃ fault, rule.check = .error fault ∧ fault.isUnsupported) ∧
      (∀ fault, rule.check = .error fault → fault.isUnsupported = false →
        ∃ same, condition (columnTypes catalog) now rule.toCondition = .error (.fault same) ∧
          same.isUnsupported = false ∧ same.messageFor rule = fault.messageFor rule) ∧
      ∀ column, rule.check = .ok column →
        column.type = .text ∨
          column.type = .json ∧ rule.operation ≠ "json_greater_than" ∧
            rule.operation ≠ "json_less_than" →
        ∃ p, condition (columnTypes catalog) now rule.toCondition = .ok [p] := by
  obtain ⟨column, known⟩ := Option.isSome_iff_exists.mp known
  cases found : Operation.ofName? rule.operation with
  | none =>
    have checked := check_unknownOperation known found
    have compiled : condition (columnTypes catalog) now rule.toCondition =
        .error (.fault (.unknownOperation rule.operation)) := by
      rw [condition, prepare_eq known, found]
    rw [checked, compiled]
    simp [RuleFault.isUnsupported]
  | some operation =>
    rw [condition_eq known found]
    cases checked : rule.check with
    | error fault => simp
    | ok column' =>
      obtain ⟨rfl, allowed⟩ := check_ok known checked
      refine ⟨?_, by simp, ?_⟩
      · have supported := supported_operation now rule.toCondition column'.type operation
        refine iff_of_false ?_ (by simp)
        rintro ⟨fault, failed, unsupported⟩
        simp [supported fault failed] at unsupported
      · intro column same plain
        cases same
        exact single_of_allowed now found allowed plain

def blankCall : Rule := ⟨⟨"call_id", "equals", " ", none⟩, "r"⟩

theorem check_agrees_blankCall :
    (Column.ofName? blankCall.column).isSome ∧
      blankCall.check = .error (.valueMissing "equals") ∧
      ∃ same, condition (columnTypes []) (.startOf default) blankCall.toCondition =
          .error (.fault same) ∧
        same.messageFor blankCall = "Operation 'equals' requires a value (rule=r)" := by
  have known : (Column.ofName? blankCall.column).isSome := by cbv
  have checked : blankCall.check = .error (.valueMissing "equals") := rfl
  obtain ⟨-, faults, -⟩ := check_agrees [] (.startOf default) blankCall known
  obtain ⟨same, compiled, -, message⟩ := faults _ checked rfl
  have said : (RuleFault.valueMissing "equals").messageFor blankCall =
      "Operation 'equals' requires a value (rule=r)" := by decide +kernel
  exact ⟨known, checked, same, compiled, message.trans said⟩

end Compile

end CallSearch
