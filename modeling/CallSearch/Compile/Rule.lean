import CallSearch.Catalog.Field
import CallSearch.Compile.Value
import CallSearch.Predicate.Basic

namespace CallSearch

def Kind.columnType : Kind → ColumnType
  | .string => .text
  | .boolean => .text
  | .number => .number
  | .date => .date
  | .object => .json
  | .array => .json

namespace Compile

abbrev ColumnTypes := List (String × ColumnType)

/-- The column types that a catalog tells; members of JSON columns are left out. Of two fields with
one path the later counts. -/
def columnTypes (catalog : Catalog) : ColumnTypes :=
  (catalog.filter fun field => !field.path.toList.contains '.').reverse.map fun field =>
    (field.path, field.kind.columnType)

def startOfDay (day : Date) : Value := .text (day.iso ++ " 00:00:00")

def endOfDay (day : Date) : Value := .text (day.iso ++ " 23:59:59.999")

def target (c : Condition) (numeric : Bool) : String :=
  Expression.render ⟨c.column, c.subkey, numeric⟩

def comparand (c : Condition) (type : ColumnType) (raw : String) : Except Failure Value :=
  if type == .number && !c.hasSubkey then
    (parseNumber (Text.strip raw)).map .number
  else .ok (.text raw)

def comparison (c : Condition) (type : ColumnType) (operator : Operator) :
    Except Failure (List Predicate) :=
  (comparand c type c.value).map fun value => [⟨target c false, operator, value⟩]

def pattern (c : Condition) (before after : String) : List Predicate :=
  [⟨target c false, .matchesPattern, .text (before ++ c.value ++ after)⟩]

/-- The predicate that the target, as a number, compares with the number the value begins with. A
value that begins with none gives a predicate that nothing matches. -/
def numericComparison (c : Condition) (operator : Operator) : Except Failure (List Predicate) :=
  match leadingNumber c.value with
  | .ok number => .ok [⟨target c true, operator, (number.map (.number ∘ .real)).getD .null⟩]
  | .error stop => .error (.stop stop)

def withinDays (c : Condition) (first last : Date) : List Predicate :=
  [⟨c.column, .atLeast, startOfDay first⟩, ⟨c.column, .atMost, endOfDay last⟩]

def operationPredicates (now : Timestamp) (c : Condition) (type : ColumnType)
    (operation : Operation) : Except Failure (List Predicate) :=
  match operation with
  | .equals =>
    if type == .date then do
      let day ← parseDay now c.value
      return withinDays c day day
    else comparison c type .equals
  | .contains => .ok (pattern c "%" "%")
  | .startsWith => .ok (pattern c "" "%")
  | .endsWith => .ok (pattern c "%" "")
  | .isEmpty => .ok [⟨target c false, .isNull, .null⟩]
  | .greaterThan =>
    if type == .date then do
      let day ← parseDay now c.value
      let next ← dayOr day.next?
      return [⟨c.column, .atLeast, startOfDay next⟩]
    else comparison c type .above
  | .lessThan =>
    if type == .date then do
      let day ← parseDay now c.value
      return [⟨c.column, .below, startOfDay day⟩]
    else comparison c type .below
  | .between => do
    let (low, high) ← parseRange c.value
    if type == .date then
      let first ← parseDay now low
      let last ← parseDay now high
      return withinDays c first last
    else
      let low ← comparand c type low
      let high ← comparand c type high
      return [⟨target c false, .atLeast, low⟩, ⟨target c false, .atMost, high⟩]
  | .jsonEquals => .ok [⟨target c false, .equals, .text c.value⟩]
  | .jsonContains => .ok (pattern c "%" "%")
  | .jsonExists => .ok [⟨target c false, .notNull, .null⟩]
  | .jsonGreaterThan => numericComparison c .above
  | .jsonLessThan => numericComparison c .below

def resolveType (types : ColumnTypes) (c : Condition) : Except RuleFault ColumnType :=
  match Column.ofName? c.column with
  | some column => .ok column.type
  | none => (types.lookup c.column).elim (.error (.unknownColumn c.column)) .ok

def prepare (types : ColumnTypes) (c : Condition) : Except RuleFault (Operation × ColumnType) := do
  let some operation := Operation.ofName? c.operation | throw (.unknownOperation c.operation)
  let type ← resolveType types c
  if let some column := Column.ofName? c.column then
    if !c.allowedOn column then throw (.notAllowed c.operation column.type column.name)
  c.checkParts type
  return (operation, type)

def condition (types : ColumnTypes) (now : Timestamp) (c : Condition) :
    Except Failure (List Predicate) :=
  match prepare types c with
  | .error fault => .error (.fault fault)
  | .ok (operation, type) => operationPredicates now c type operation

end Compile

end CallSearch
