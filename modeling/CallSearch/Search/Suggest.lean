import CallSearch.Text.Blank
import CallSearch.Text.Lowercase

namespace CallSearch.Search

def takeFirst {α : Type} (limit : Int) (items : List α) : List α :=
  if limit < 0 then items.take (items.length - limit.natAbs) else items.take limit.toNat

def completions (partialText : String) (fields : List String) : List String :=
  match Text.cut ':' partialText with
  | (field, some _) =>
    if fields.any (field.toList.isPrefixOf ·.toList) then
      [field ++ ":value", field ++ ":>100", field ++ ":<100"]
    else []
  | (_, none) =>
    let needle := (Text.lower partialText).toList
    (fields.filter fun field => Text.occursIn needle (Text.lower field).toList).map (· ++ ":")

def suggestions (partialText : String) (fields : List String) (limit : Int) : List String :=
  takeFirst limit (completions partialText fields)

end CallSearch.Search
