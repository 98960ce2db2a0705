import CallSearch.Predicate.Expression
import CallSearch.Store.Call

namespace CallSearch

structure Source where
  column : CallColumn
  path : Option (List String)
  numeric : Bool
deriving DecidableEq

inductive QueryError where
  | expression (error : ExpressionError)
  | unknownColumn (name : String)
  | notJson (name : String)
  | invalidTime (text : String)
  | invalidNumber (text : String)
  | integerTooLarge
  | refused
deriving DecidableEq

def QueryError.message? : QueryError → Option String
  | .expression error => some error.message
  | .unknownColumn name => some ("Unknown column '" ++ name ++ "'")
  | .notJson name => some ("Column '" ++ name ++ "' is not a JSON column")
  | .invalidTime text => some ("Invalid datetime value '" ++ text ++ "'")
  | .invalidNumber text => some ("Invalid numeric value '" ++ text ++ "'")
  | .integerTooLarge => some Number.tooLargeForStore
  | .refused => none

namespace Json

def storeText? : Json → Option String
  | .null => none
  | .bool b => some (if b then "1" else "0")
  | .int n => some (Number.ofInt n).storeText
  | .real x => if x.isNan then none else some x.inDocument.storeText
  | .str s => some s
  | document => some (String.ofList (chars storeStyle document))

def isPlainName (name : String) : Bool :=
  name.toList.all fun c => c != '\x22' && c != '\\' && c != '\x00'

/-- A name of a member as the store compares it, up to the first NUL. -/
def storedName (name : String) : String := String.ofList (name.toList.takeWhile (· != '\x00'))

def storedMember? (document : Json) (name : String) : Option Json :=
  (document.members.find? (storedName ·.1 == name)).map (·.2)

def storedWalk? : Json → List String → Option Json
  | document, [] => some document
  | document, name :: rest => (document.storedMember? name).bind (storedWalk? · rest)

def memberText? (document : Json) (path : List String) : Option String :=
  if path.all isPlainName then (document.storedWalk? path).bind storeText? else none

end Json

namespace Source

/-- The source that an expression means. Only documents have members. -/
def ofExpression (e : Expression) : Except QueryError Source :=
  match CallColumn.ofName? e.column with
  | none => .error (.unknownColumn e.column)
  | some column =>
    match e.subkey with
    | none => .ok ⟨column, none, e.numeric⟩
    | some subkey =>
      if subkey.isEmpty then .ok ⟨column, none, e.numeric⟩
      else
        match column with
        | .payload _ => .ok ⟨column, some (Text.split '.' subkey), e.numeric⟩
        | _ => .error (.notJson e.column)

def plainCell (source : Source) (call : Call) : Cell :=
  match source.column, source.path with
  | .payload column, some path =>
    (((call.payloads column).getD .null).memberText? path).elim .null .text
  | column, _ => call.cell column

def cell (source : Source) (call : Call) : Cell :=
  if source.numeric then (source.plainCell call).asNumber else source.plainCell call

def isText (source : Source) : Bool :=
  source.path.isSome || source.column matches .agent || source.column matches .text _

def affinity (source : Source) : Affinity :=
  if source.isText && !source.numeric then .text else .numeric

def depth (source : Source) : Nat :=
  2 + (if source.path.isSome then 2 else 0) + (if source.numeric then 1 else 0)

def isPlain (source : Source) : Bool := source.path.all (·.all Json.isPlainName)

end Source

end CallSearch
