import CallSearch.Search.Term

namespace CallSearch.Search

def comparisonOf (operation : String) : Comparison :=
  if operation == "greater_than" || operation == "json_greater_than" then .above
  else if operation == "less_than" || operation == "json_less_than" then .below
  else if operation == "not_equals" then .unequal
  else .equal

def renderValue (value : List Char) : List Char :=
  if value.contains ' ' then '\x22' :: (value ++ ['\x22']) else value

def renderCondition (c : Condition) : List Char :=
  let subkey :=
    match c.subkey with
    | some subkey => if subkey.isEmpty then [] else '.' :: subkey.toList
    | none => []
  c.column.toList ++ subkey
    ++ ':' :: ((comparisonOf c.operation).sign ++ renderValue c.value.toList)

def render (conditions : List Condition) : List Char :=
  ([' ', 'A', 'N', 'D', ' ']).intercalate (conditions.map renderCondition)

def ofRules (rules : List Rule) : String := String.ofList (render (rules.map (·.toCondition)))

end CallSearch.Search
