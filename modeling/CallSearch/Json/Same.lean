import CallSearch.Json.Basic

namespace CallSearch.Json

def amount? : Json → Option Number
  | .bool b => some (.int (if b then 1 else 0))
  | .int n => some (.int n)
  | .real x => some (.real x)
  | _ => none

mutual

def same : Json → Json → Bool
  | .null, .null => true
  | .str s, .str t => s == t
  | .arr items, .arr others => sameItems items others
  | .obj members, .obj others => members.length == others.length && sameMembers members others
  | a, b =>
    match a.amount?, b.amount? with
    | some m, some n => m.same n
    | _, _ => false

def sameItems : List Json → List Json → Bool
  | [], [] => true
  | item :: rest, other :: others => item.same other && sameItems rest others
  | _, _ => false

def sameMembers : List (String × Json) → List (String × Json) → Bool
  | [], _ => true
  | (name, value) :: rest, others =>
    (match others.lookup name with
      | some other => value.same other
      | none => false) && sameMembers rest others

end

end CallSearch.Json
