import CallSearch.Filter.Rule
import CallSearch.Search.Token
import CallSearch.Text.Digit

namespace CallSearch.Search

inductive Comparison where
  | equal
  | unequal
  | above
  | below
deriving DecidableEq

namespace Comparison

def sign : Comparison → List Char
  | .equal => []
  | .unequal => ['!', '=']
  | .above => ['>']
  | .below => ['<']

def operationName : Comparison → String
  | .equal => "equals"
  | .unequal => "not_equals"
  | .above => "greater_than"
  | .below => "less_than"

def take : List Char → Comparison × List Char
  | '!' :: '=' :: rest => (.unequal, rest)
  | '>' :: rest => (.above, rest)
  | '<' :: rest => (.below, rest)
  | cs => (.equal, cs)

end Comparison

inductive Term where
  | andWord
  | orWord
  | field (condition : Condition)
  | phrase (text : String)
  | word (text : String)
  | nothing
deriving DecidableEq

/-- Splits a field at its first dot; an empty part after the dot counts as none. -/
def splitField (field : List Char) : String × Option String :=
  let (column, subkey?) := Text.cutFirst '.' field
  (String.ofList column, subkey?.bind fun subkey =>
    if subkey.isEmpty then none else some (String.ofList subkey))

/-- Takes a field and the colon after it off the start. A field is an identifier, with a dot and a
further run of word characters if it reaches into a JSON column. -/
def takeField? (cs : List Char) : Option (List Char × List Char) :=
  let column := cs.takeWhile Text.isWordChar
  if !column.head?.any Text.isWordStart then none
  else
    match cs.dropWhile Text.isWordChar with
    | ':' :: rest => some (column, rest)
    | '.' :: rest =>
      let subkey := rest.takeWhile Text.isWordChar
      match rest.dropWhile Text.isWordChar with
      | ':' :: rest => if subkey.isEmpty then none else some (column ++ '.' :: subkey, rest)
      | _ => none
    | _ => none

def fieldCondition? (token : List Char) : Option Condition := do
  let (field, rest) ← takeField? token
  let (comparison, value) := Comparison.take rest
  if value.contains '\n' then none
  else
    let (column, subkey) := splitField field
    return ⟨column, comparison.operationName, String.ofList (unquote value), subkey⟩

def Term.ofToken (token : List Char) : Term :=
  if token == ['O', 'R'] then .orWord
  else if token == ['A', 'N', 'D'] then .andWord
  else
    let quoted := isQuoted token
    match if quoted then none else fieldCondition? token with
    | some condition => .field condition
    | none =>
      let text := unquote token
      if text.isEmpty || text == ['\x27'] || text == ['\x22'] then .nothing
      else if quoted then .phrase (String.ofList text)
      else .word (String.ofList text)

end CallSearch.Search
