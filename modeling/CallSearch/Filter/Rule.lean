import CallSearch.Filter.Column
import CallSearch.Identity
import CallSearch.Text.Blank

namespace CallSearch

structure Condition where
  column : String
  operation : String
  value : String
  subkey : Option String
deriving DecidableEq, Inhabited

structure Rule extends Condition where
  id : String
deriving DecidableEq, Inhabited

inductive RuleFault where
  | unknownColumn (column : String)
  | notAllowed (operation : String) (type : ColumnType) (column : String)
  | unknownOperation (operation : String)
  | valueMissing (operation : String)
  | subkeyMissing (column : String)
  | subkeyUnexpected (column : String)
  | invalidDate (text : String)
  | invalidNumber (text : String)
  | invalidRange (text : String)
deriving DecidableEq

namespace RuleFault

def isUnsupported : RuleFault → Bool
  | .notAllowed _ _ _ => true
  | .unknownOperation _ => true
  | _ => false

def message : RuleFault → String
  | .unknownColumn column => "Unknown column '" ++ column ++ "'"
  | .notAllowed operation type column =>
    "Operation '" ++ operation ++ "' is not allowed on " ++ type.name ++ " column '" ++ column
      ++ "'"
  | .unknownOperation operation => "Unknown filter operation '" ++ operation ++ "'"
  | .valueMissing operation => "Operation '" ++ operation ++ "' requires a value"
  | .subkeyMissing column => "JSON column '" ++ column ++ "' requires a jsonField"
  | .subkeyUnexpected column => "Column '" ++ column ++ "' does not accept a jsonField"
  | .invalidDate text => "Invalid date '" ++ text ++ "'"
  | .invalidNumber text => "Invalid number '" ++ text ++ "'"
  | .invalidRange text => "'between' expects 'low,high', got '" ++ text ++ "'"

def messageFor (rule : Rule) (fault : RuleFault) : String :=
  fault.message ++ if rule.id.isEmpty then "" else " (rule=" ++ rule.id ++ ")"

end RuleFault

namespace Condition

def hasSubkey (c : Condition) : Bool := c.subkey.any (!·.isEmpty)

def allowedOn (c : Condition) (column : Column) : Bool :=
  match Operation.ofName? c.operation with
  | some operation =>
    column.type.operations.contains operation
      || (column.type == .json && c.hasSubkey && operation.reachesMembers)
  | none => false

def hasValue (c : Condition) : Bool :=
  (Operation.ofName? c.operation).any (!·.needsValue) || !Text.isBlankText c.value

/-- Finds out whether a condition that applies to a column of some type has its value, and its
subkey exactly if the column is JSON. -/
def checkParts (c : Condition) (type : ColumnType) : Except RuleFault Unit :=
  if !c.hasValue then .error (.valueMissing c.operation)
  else if type == .json && !c.hasSubkey then .error (.subkeyMissing c.column)
  else if type != .json && c.hasSubkey then .error (.subkeyUnexpected c.column)
  else .ok ()

def check (c : Condition) : Except RuleFault Column := do
  let some column := Column.ofName? c.column | throw (.unknownColumn c.column)
  if !c.allowedOn column then throw (.notAllowed c.operation column.type column.name)
  c.checkParts column.type
  return column

def toRule (c : Condition) : Fresh Rule := do return { c with id := ← freshId }

end Condition

end CallSearch
