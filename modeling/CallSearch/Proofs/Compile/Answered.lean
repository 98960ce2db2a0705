import CallSearch.Proofs.AgentSearch
import CallSearch.Proofs.Anomaly.Signals
import CallSearch.Proofs.Catalog.Types
import CallSearch.Proofs.Compile.Translated
import CallSearch.Proofs.Store.Answer

namespace CallSearch

namespace Compile

variable {types : ColumnTypes} {now : Timestamp} {c : Condition} {operation : Operation}
  {type : ColumnType} {predicates : List Predicate}

theorem nothing_of_error {failure : Failure} (keyed : c.hasSubkey = (type == .json))
    (failed : operationPredicates now c type operation = .error failure) :
    ¬Unreadable c type operation ∧ ¬Hopeless c type operation ∧ ¬TooLarge c type operation ∧
      ¬TooLong c type operation := by
  cases operation with
  | contains | startsWith | endsWith | isEmpty | jsonEquals | jsonContains | jsonExists =>
    cases failed
  | jsonGreaterThan | jsonLessThan =>
    have led : leadingNumber c.value ≠ .ok none := by
      intro led
      rw [operationPredicates, numericComparison, led] at failed
      cases failed
    cases type <;> exact ⟨id, led, id, id⟩
  | equals | greaterThan | lessThan =>
    cases type with
    | text | date | json => exact ⟨id, id, id, id⟩
    | number =>
      refine ⟨id, id, ?_, id⟩
      rintro ⟨n, parsed, -⟩
      simp [operationPredicates, comparison, comparand_number keyed, parsed, Except.map] at failed
  | between =>
    cases type with
    | text | date | json => exact ⟨id, id, id, id⟩
    | number =>
      refine ⟨id, id, ?_, id⟩
      rintro ⟨low, high, m, n, range, parsed, parsed', -⟩
      simp [operationPredicates, range, comparand_number keyed, parsed, parsed', Except.map, bind,
        Except.bind, pure, Except.pure] at failed

section Catalog

variable {records : List Json}

theorem resolveType_catalog
    (resolved : resolveType (columnTypes (Catalog.build records)) c = .ok type) :
    ∃ column, CallColumn.ofName? c.column = some column ∧ column.type? = some type := by
  have listed : ∀ entry ∈ columnTypes Catalog.basicFields,
      (CallColumn.ofName? entry.1).bind CallColumn.type? = some entry.2 := by decide +kernel
  rw [columnTypes_build] at resolved
  unfold resolveType at resolved
  cases known : Column.ofName? c.column with
  | some column =>
    rw [known] at resolved
    cases resolved
    have name : column.name = c.column := by simpa using List.find?_some known
    rw [← name]
    cases column <;> exact ⟨_, rfl, rfl⟩
  | none =>
    rw [known] at resolved
    cases found : (columnTypes Catalog.basicFields).lookup c.column with
    | none =>
      rw [found] at resolved
      cases resolved
    | some other =>
      rw [found] at resolved
      cases resolved
      obtain ⟨before, after, whole, -⟩ := List.lookup_eq_some_iff.mp found
      have entry := listed (c.column, type) (by rw [whole]; simp)
      exact Option.bind_eq_some_iff.mp entry

theorem keyed_of_checkParts (checked : c.checkParts type = .ok ()) :
    c.hasSubkey = (type == .json) := by
  unfold Condition.checkParts at checked
  split_ifs at checked
  cases keyed : c.hasSubkey <;> cases type <;> simp_all

theorem prepare_ok {types : ColumnTypes} (prepared : prepare types c = .ok (operation, type)) :
    resolveType types c = .ok type ∧ c.hasSubkey = (type == .json) := by
  unfold prepare at prepared
  cases found : Operation.ofName? c.operation with
  | none =>
    rw [found] at prepared
    cases prepared
  | some named =>
    rw [found] at prepared
    obtain ⟨resolved, hresolved, prepared⟩ := ok_of_bind prepared
    have checked : c.checkParts resolved = .ok () ∧ resolved = type := by
      cases known : Column.ofName? c.column with
      | none =>
        rw [known] at prepared
        obtain ⟨_, checked, prepared⟩ := ok_of_bind prepared
        cases prepared
        exact ⟨checked, rfl⟩
      | some column =>
        cases allowed : c.allowedOn column with
        | false =>
          simp only [known, allowed, Bool.not_false, if_true] at prepared
          cases prepared
        | true =>
          simp only [known, allowed, Bool.not_true, Bool.false_eq_true, if_false] at prepared
          obtain ⟨_, checked, prepared⟩ := ok_of_bind prepared
          cases prepared
          exact ⟨checked, rfl⟩
    obtain ⟨checked, rfl⟩ := checked
    exact ⟨hresolved, keyed_of_checkParts checked⟩

theorem writtenAs_prepared (prepared : prepare (columnTypes (Catalog.build records)) c =
      .ok (operation, type)) (plain : ∀ key, c.subkey = some key → Json.isPlainName key)
    (numeric : Bool) : ∃ source : Source, source.WrittenAs (target c numeric) type := by
  obtain ⟨resolved, keyed⟩ := prepare_ok prepared
  obtain ⟨column, known, typed⟩ := resolveType_catalog resolved
  exact writtenAs_target known typed keyed plain numeric

end Catalog

section Rules

variable {records : List Json} {rule : Rule}

/-- Whether a rule passes all checks and its operation, on its column, is of some kind. -/
def Asks (kind : Condition → ColumnType → Operation → Prop) (types : ColumnTypes) (rule : Rule) :
    Prop :=
  ∃ operation type, prepare types rule.toCondition = .ok (operation, type) ∧
    kind rule.toCondition type operation

theorem asks_iff {kind : Condition → ColumnType → Operation → Prop}
    (prepared : prepare types rule.toCondition = .ok (operation, type)) :
    Asks kind types rule ↔ kind rule.toCondition type operation := by
  simp [Asks, prepared]

theorem not_asks {kind : Condition → ColumnType → Operation → Prop} {fault : RuleFault}
    (prepared : prepare types rule.toCondition = .error fault) : ¬Asks kind types rule := by
  simp [Asks, prepared]

/-- Whether an error says that a text is none of what its column holds. -/
def Misread (text : String) (error : QueryError) : Prop :=
  error = .invalidTime text ∨ error = .invalidNumber text

theorem misread_rule (now : Timestamp) (plain : ∀ key, rule.subkey = some key → Json.isPlainName key)
    (unreadable : Asks Unreadable (columnTypes (Catalog.build records)) rule) :
    ∃ p error, predicatesOf (columnTypes (Catalog.build records)) now rule = [p] ∧
      Test.ofPredicate p = .error error ∧ Misread rule.value error := by
  obtain ⟨operation, type, prepared, unreadable⟩ := unreadable
  obtain ⟨source, written⟩ := writtenAs_prepared prepared plain false
  have json : operation = .jsonEquals := by
    cases operation <;> cases type <;> first | rfl | cases unreadable
  subst json
  have given : predicatesOf (columnTypes (Catalog.build records)) now rule =
      [⟨target rule.toCondition false, .equals, .text rule.value⟩] := by
    rw [predicatesOf, condition, prepared]
    rfl
  cases type with
  | text | json => cases unreadable
  | date =>
    have coerced := Test.coerce_date written.of rfl rule.value
    cases read : Iso.timestamp rule.value with
    | ok t => exact absurd read (unreadable t)
    | error e =>
      rw [read] at coerced
      exact ⟨_, _, given, Test.ofPredicate_unreadable written.reads rfl coerced, .inl rfl⟩
  | number =>
    have coerced := Test.coerce_number written.of rfl rule.value
    rw [show Double.ofText? rule.value = none from unreadable] at coerced
    exact ⟨_, _, given, Test.ofPredicate_unreadable written.reads rfl coerced, .inr rfl⟩

theorem translates_rule (now : Timestamp)
    (plain : ∀ key, rule.subkey = some key → Json.isPlainName key)
    (readable : ¬Asks Unreadable (columnTypes (Catalog.build records)) rule) :
    Translates (predicatesOf (columnTypes (Catalog.build records)) now rule)
      (Asks Hopeless (columnTypes (Catalog.build records)) rule)
      (Asks TooLarge (columnTypes (Catalog.build records)) rule)
      (Asks TooLong (columnTypes (Catalog.build records)) rule) := by
  have nothing : Translates [] False False False := ⟨[], rfl, .nil⟩
  cases prepared : prepare (columnTypes (Catalog.build records)) rule.toCondition with
  | error fault =>
    have none : predicatesOf (columnTypes (Catalog.build records)) now rule = [] := by
      rw [predicatesOf, condition, prepared]
      rfl
    rw [none]
    exact nothing.congr (iff_of_false id (not_asks prepared)) (iff_of_false id (not_asks prepared))
      (iff_of_false id (not_asks prepared))
  | ok found =>
    obtain ⟨operation, type⟩ := found
    obtain ⟨-, keyed⟩ := prepare_ok prepared
    have given : predicatesOf (columnTypes (Catalog.build records)) now rule =
        (operationPredicates now rule.toCondition type operation).toOption.getD [] := by
      rw [predicatesOf, condition, prepared]
    rw [asks_iff prepared] at readable
    rw [given, asks_iff prepared, asks_iff prepared, asks_iff prepared]
    cases compiled : operationPredicates now rule.toCondition type operation with
    | error failure =>
      obtain ⟨-, hopeless, large, long⟩ := nothing_of_error keyed compiled
      exact nothing.congr (iff_of_false id hopeless) (iff_of_false id large) (iff_of_false id long)
    | ok predicates =>
      exact translates_operation (writtenAs_prepared prepared plain) keyed compiled readable

theorem report_cons (rule : Rule) (items : List Rule) :
    (report types now (rule :: items)).predicates =
      predicatesOf types now rule ++ (report types now items).predicates :=
  List.flatMap_cons

variable {items : List Rule}

theorem translates_rules (now : Timestamp) (htypes : types = columnTypes (Catalog.build records))
    (plain : ∀ rule ∈ items, ∀ key, rule.subkey = some key → Json.isPlainName key)
    (readable : ∀ rule ∈ items, ¬Asks Unreadable types rule) :
    Translates (report types now items).predicates (∃ rule ∈ items, Asks Hopeless types rule)
      (∃ rule ∈ items, Asks TooLarge types rule) (∃ rule ∈ items, Asks TooLong types rule) := by
  subst htypes
  induction items with
  | nil => exact Translates.congr ⟨[], rfl, .nil⟩ (by simp) (by simp) (by simp)
  | cons rule rest ih =>
    rw [List.forall_mem_cons] at plain readable
    rw [report_cons]
    simp only [List.exists_mem_cons_iff]
    exact (translates_rule now plain.1 readable.1).append (ih plain.2 readable.2)

theorem misread_rules (now : Timestamp) (htypes : types = columnTypes (Catalog.build records))
    (plain : ∀ rule ∈ items, ∀ key, rule.subkey = some key → Json.isPlainName key)
    (unreadable : ∃ rule ∈ items, Asks Unreadable types rule) :
    ∃ rule ∈ items, Asks Unreadable types rule ∧ ∃ error, Misread rule.value error ∧
      Test.ofPredicates (report types now items).predicates = .error error := by
  subst htypes
  induction items with
  | nil => simp at unreadable
  | cons rule rest ih =>
    rw [List.forall_mem_cons] at plain
    rw [report_cons]
    by_cases first : Asks Unreadable (columnTypes (Catalog.build records)) rule
    · obtain ⟨p, error, given, refused, misread⟩ := misread_rule now plain.1 first
      refine ⟨rule, List.mem_cons_self, first, error, misread, ?_⟩
      have stopped : Test.ofPredicates [p] = .error error := by
        rw [Test.ofPredicates, List.mapM_cons, refused]
        rfl
      rw [given]
      exact Test.ofPredicates_error_append stopped _
    · obtain ⟨tests, translated, -⟩ := translates_rule now plain.1 first
      have later := (List.exists_mem_cons_iff ..).mp unreadable
      obtain ⟨other, among, asks, error, misread, refused⟩ := ih plain.2 (later.resolve_left first)
      exact ⟨other, List.mem_cons_of_mem _ among, asks, error, misread,
        Test.ofPredicates_append_error translated refused⟩

end Rules

section Query

variable {owner : Option Predicate} {toggles : List Toggle} {thresholds : Option Thresholds}
  {reached : List Predicate}

theorem translates_owner (owned : ∀ p, owner = some p → ∃ agent, p = Predicate.owner agent) :
    Translates owner.toList False False False := by
  cases owner with
  | none => exact ⟨[], rfl, .nil⟩
  | some p =>
    obtain ⟨agent, rfl⟩ := owned p rfl
    refine translates_single (Test.ofPredicate_owner agent)
      (Test.RunAs.congr (.single (by simp [Test.owner]) rfl) .rfl ?_ .rfl)
    simp [Test.owner, Test.isBindable]

theorem translates_all (each : ∀ p ∈ predicates, Translates [p] False False False) :
    Translates predicates False False False := by
  induction predicates with
  | nil => exact ⟨[], rfl, .nil⟩
  | cons p rest ih =>
    rw [List.forall_mem_cons] at each
    simpa using each.1.append (ih each.2)

theorem translates_anomalies (h : anomalies toggles thresholds = .ok reached) :
    Translates reached False False False := by
  refine translates_all fun p among ↦ ?_
  cases thresholds with
  | none =>
    cases h
    cases among
  | some thresholds =>
    obtain ⟨active, -, rfl⟩ := ok_map_iff.mp h
    obtain ⟨signal, -, has⟩ := List.mem_filterMap.mp among
    obtain ⟨v, -, rfl⟩ := Option.map_eq_some_iff.mp has
    have plain : signal.source.isPlain := by cases signal <;> decide
    refine translates_single Signal.ofPredicate_target
      (Test.RunAs.congr (.single (by simp) plain) .rfl ?_ .rfl)
    simp [Test.isBindable, Number.fits]

/-- Whether predicates become tests that the store cannot nest so deep. -/
def Deep (predicates : List Predicate) : Prop :=
  ∃ tests, Test.ofPredicates predicates = .ok tests ∧ Test.areDeep tests

theorem ofQuery_of_not_deep {tests : List Test} (shallow : ¬Deep predicates)
    (translated : Test.ofPredicates predicates = .ok tests) :
    Test.ofQuery predicates = .ok tests := by
  refine Test.ofQuery_ok_iff.mpr ⟨translated, ?_⟩
  by_contra deep
  exact shallow ⟨tests, translated, by simpa using deep⟩

theorem not_deep_of_length (short : predicates.length ≤ 993) : ¬Deep predicates := by
  rintro ⟨tests, translated, deep⟩
  have same := (forall₂_of_mapM translated).length_eq
  have read := Test.ofQuery_of_short translated (same ▸ short)
  rw [(Test.ofQuery_ok_iff.mp read).2] at deep
  cases deep

end Query

end Compile

namespace QuerySource

open Compile

variable {records : List Json} {source : QuerySource} {compilation : Compilation}
  {calls : List Call}

def Asks (source : QuerySource) (kind : Condition → ColumnType → Operation → Prop) : Prop :=
  ∃ rule ∈ Forest.rules source.groups, Compile.Asks kind source.types rule

/-- What the store says to a compiled query, whatever its plan. A text that is none of what its
column holds stops it, and so do too many predicates. Unless some rule can be satisfied by no call, a
whole number of more than 64 bits stops it too. Without all this and without patterns that are too
long it is answered; with such a pattern it depends on the plan. -/
structure Replied (source : QuerySource) (predicates : List Predicate) (engine : Engine)
    (calls : List Call) : Prop where
  misread : source.Asks Unreadable →
    ∃ rule ∈ Forest.rules source.groups, Compile.Asks Unreadable source.types rule ∧
      ∃ error, Misread rule.value error ∧
        CallTable.Refuses (some calls) predicates engine error
  deep : Deep predicates → CallTable.Refuses (some calls) predicates engine .refused
  short : predicates.length ≤ 993 → ¬Deep predicates
  large : ¬source.Asks Unreadable → ¬Deep predicates → ¬source.Asks Hopeless →
    source.Asks TooLarge → CallTable.Refuses (some calls) predicates engine .integerTooLarge
  answered : ¬source.Asks Unreadable → ¬Deep predicates →
    source.Asks Hopeless ∨ ¬source.Asks TooLarge ∧ ¬source.Asks TooLong →
      CallTable.Answers (some calls) predicates engine

variable (types : source.types = columnTypes (Catalog.build records))
  (owned : ∀ p, source.owner = some p → ∃ agent, p = Predicate.owner agent)
  (plain : ∀ rule ∈ Forest.rules source.groups, ∀ key, rule.subkey = some key →
    Json.isPlainName key)
  (compiled : query source = .ok compilation)

include types owned plain compiled

theorem translates_query (readable : ¬source.Asks Unreadable) :
    Translates compilation.predicates (source.Asks Hopeless) (source.Asks TooLarge)
      (source.Asks TooLong) := by
  obtain ⟨known, reached, hrules, hanomalies, predicates, -⟩ := query_ok compiled
  obtain ⟨-, rfl⟩ := rules_eq_ok_iff.mp hrules
  have readable : ∀ rule ∈ Forest.rules source.groups,
      ¬Compile.Asks Unreadable source.types rule := by
    simpa [Asks] using readable
  have owner := translates_owner owned
  have rules := translates_rules source.now types plain readable
  rw [predicates]
  exact ((owner.append rules).append (translates_anomalies hanomalies)).congr (by simp [Asks])
    (by simp [Asks]) (by simp [Asks])

theorem misread_query (unreadable : source.Asks Unreadable) :
    ∃ rule ∈ Forest.rules source.groups, Compile.Asks Unreadable source.types rule ∧
      ∃ error, Misread rule.value error ∧
        Test.ofPredicates compilation.predicates = .error error := by
  obtain ⟨known, reached, hrules, -, predicates, -⟩ := query_ok compiled
  obtain ⟨-, rfl⟩ := rules_eq_ok_iff.mp hrules
  obtain ⟨first, translated, -⟩ := translates_owner owned
  obtain ⟨rule, among, asks, error, misread, refused⟩ :=
    misread_rules source.now types plain unreadable
  refine ⟨rule, among, asks, error, misread, ?_⟩
  rw [predicates]
  exact Test.ofPredicates_error_append (Test.ofPredicates_append_error translated refused) reached

/-- What the store says to every compiled query: its count and all its pages are answered, or all of
them fail. Rules are to name members by plain keys: with others the store may read no path. -/
theorem compiled_replied (engine : Engine) (calls : List Call) :
    source.Replied compilation.predicates engine calls where
  misread unreadable := by
    obtain ⟨rule, among, asks, error, misread, refused⟩ :=
      misread_query types owned plain compiled unreadable
    have stopped : Test.ofQuery compilation.predicates = .error error := by
      rw [Test.ofQuery, refused]
      rfl
    exact ⟨rule, among, asks, error, misread, .of_ofQuery stopped _ engine⟩
  deep := fun ⟨_, translated, deep⟩ ↦ .of_ofQuery (Test.ofQuery_deep translated deep) _ engine
  short := not_deep_of_length
  large readable shallow satisfiable large := by
    obtain ⟨tests, translated, runs⟩ := translates_query types owned plain compiled readable
    have some : .never ∉ tests := mt runs.never.mp satisfiable
    exact .of_select (ofQuery_of_not_deep shallow translated)
      (engine.select_large some (fun bindable ↦ runs.bindable.mp bindable large) calls)
  answered readable shallow possible := by
    obtain ⟨tests, translated, runs⟩ := translates_query types owned plain compiled readable
    have read := ofQuery_of_not_deep shallow translated
    by_cases never : .never ∈ tests
    · exact .of_select read (engine.select_never never calls)
    · have possible := possible.resolve_left (mt runs.never.mpr never)
      exact .of_select read (engine.select_safe never (runs.bindable.mpr possible.1)
        (runs.safe.mpr possible.2) calls)

omit types owned plain compiled

def lasting (seconds : String) : QuerySource where
  types := columnTypes (Catalog.build [])
  now := .startOf default
  owner := some (Predicate.owner "a")
  groups := [⟨"g", .and, [⟨⟨"duration_seconds", "equals", seconds, none⟩, "r"⟩], []⟩]
  toggles := []
  thresholds := none

theorem asks_lasting (kind : Condition → ColumnType → Operation → Prop) (seconds : String)
    (prepared : prepare (lasting seconds).types ⟨"duration_seconds", "equals", seconds, none⟩ =
      .ok (.equals, .number)) :
    (lasting seconds).Asks kind ↔
      kind ⟨"duration_seconds", "equals", seconds, none⟩ .number .equals := by
  have rules : Forest.rules (lasting seconds).groups =
    [⟨⟨"duration_seconds", "equals", seconds, none⟩, "r"⟩] := rfl
  simp only [QuerySource.Asks, rules, List.mem_singleton, exists_eq_left]
  exact Compile.asks_iff prepared

/-- A minute is asked for and answered; what does not fit into 64 bits is compiled and refused. -/
theorem compiled_replied_lasting :
    ∃ minute ages, query (lasting "60") = .ok minute ∧
      query (lasting "9223372036854775808") = .ok ages ∧ ages.dropped = [] ∧
      CallTable.Answers (some [AgentSearch.bareCall 1 "a"]) minute.predicates .inOrder ∧
      CallTable.Refuses (some [AgentSearch.bareCall 1 "a"]) ages.predicates .inOrder
        .integerTooLarge := by
  obtain ⟨minute, compiled, few⟩ : ∃ minute, query (lasting "60") = .ok minute ∧
      minute.predicates.length ≤ 993 := ⟨_, rfl, by decide⟩
  obtain ⟨ages, compiled', dropped, few'⟩ :
      ∃ ages, query (lasting "9223372036854775808") = .ok ages ∧ ages.dropped = [] ∧
        ages.predicates.length ≤ 993 := ⟨_, rfl, rfl, by decide⟩
  have owned (seconds : String) :
      ∀ p, (lasting seconds).owner = some p → ∃ agent, p = Predicate.owner agent :=
    fun p same ↦ ⟨"a", (Option.some.inj same).symm⟩
  have plain (seconds : String) : ∀ rule ∈ Forest.rules (lasting seconds).groups, ∀ key,
      rule.subkey = some key → Json.isPlainName key := by
    intro rule among key keyed
    rw [List.mem_singleton.mp among] at keyed
    cases keyed
  have asks := fun kind ↦ asks_lasting kind "60" rfl
  have asks' := fun kind ↦ asks_lasting kind "9223372036854775808" rfl
  have replied := compiled_replied rfl (owned _) (plain _) compiled .inOrder
    [AgentSearch.bareCall 1 "a"]
  have replied' := compiled_replied rfl (owned _) (plain _) compiled' .inOrder
    [AgentSearch.bareCall 1 "a"]
  refine ⟨minute, ages, compiled, compiled', dropped, ?_, ?_⟩
  · refine replied.answered (mt (asks _).mp id) (replied.short few)
      (.inr ⟨mt (asks _).mp ?_, mt (asks _).mp id⟩)
    rintro ⟨n, parsed, large⟩
    obtain rfl : Number.int 60 = n := Except.ok.inj (Eq.trans rfl parsed)
    cases large
  · exact replied'.large (mt (asks' _).mp id) (replied'.short few') (mt (asks' _).mp id)
      ((asks' _).mpr ⟨.int 9223372036854775808, rfl, rfl⟩)

/-- A number of seconds that does not fit into 64 bits is compiled, and the store refuses it. -/
theorem large_number_not_answered :
    ∃ compilation, query (lasting "9223372036854775808") = .ok compilation ∧
      compilation.dropped = [] ∧
      CallTable.count (some [AgentSearch.bareCall 1 "a"]) compilation.predicates =
        .error .integerTooLarge ∧
      CallTable.fetch (some [AgentSearch.bareCall 1 "a"]) compilation.predicates {} {} =
        .error .integerTooLarge :=
  ⟨_, rfl, rfl, rfl, rfl⟩

end QuerySource

end CallSearch
