import CallSearch.Text.Blank
import CallSearch.Text.Digit
import CallSearch.Text.Quoted

namespace CallSearch

structure Expression where
  column : String
  subkey : Option String
  numeric : Bool
deriving DecidableEq, Inhabited

structure ExpressionError where
  text : String
deriving DecidableEq

def ExpressionError.message (e : ExpressionError) : String :=
  "Invalid column expression: " ++ Text.quoted e.text

namespace Expression

def numericSuffix : List Char := " (numeric)".toList

def hasSubkey (e : Expression) : Bool := e.subkey.any (!·.isEmpty)

def render (e : Expression) : String :=
  let subkey :=
    match e.subkey with
    | some subkey => if subkey.isEmpty then [] else '.' :: subkey.toList
    | none => []
  String.ofList (e.column.toList ++ subkey ++ if e.numeric then numericSuffix else [])

/-- Whether characters are an identifier; a line break after it is let pass. -/
def isIdentifier (cs : List Char) : Bool :=
  let body := if cs.getLast? == some '\n' then cs.dropLast else cs
  body.head?.any Text.isWordStart && body.all Text.isWordChar

def dropSuffix? (suffix cs : List Char) : Option (List Char) :=
  if suffix.isSuffixOf cs then some (cs.take (cs.length - suffix.length)) else none

def parse (s : String) : Except ExpressionError Expression :=
  let stripped := dropSuffix? numericSuffix s.toList
  let body := stripped.getD s.toList
  let (column, subkey?) := Text.cutFirst '.' body
  if isIdentifier column then
    .ok ⟨String.ofList column,
      subkey?.bind fun subkey => if subkey.isEmpty then none else some (String.ofList subkey),
      stripped.isSome⟩
  else .error ⟨String.ofList body⟩

end Expression

end CallSearch
