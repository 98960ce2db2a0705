import CallSearch.Number
import CallSearch.Text.Blank

namespace CallSearch

inductive Json where
  | null
  | bool (value : Bool)
  | int (n : Int)
  | real (x : Double)
  | str (s : String)
  | arr (items : List Json)
  | obj (members : List (String × Json))
deriving Inhabited

namespace Json

def member? : Json → String → Option Json
  | .obj members, key => members.lookup key
  | _, _ => none

/-- The value at the end of a path of member names; every name has to be that of a member. -/
def walk? : Json → List String → Option Json
  | document, [] => some document
  | document, name :: rest => (document.member? name).bind (walk? · rest)

def pathNames (path : String) : List String :=
  if path.isEmpty then [] else Text.split '.' path

def lookup? (document : Json) (path : String) : Option Json :=
  document.walk? (pathNames path)

def lookup (document : Json) (path : String) : Json :=
  (document.lookup? path).getD .null

def isNull : Json → Bool
  | .null => true
  | _ => false

def members : Json → List (String × Json)
  | .obj members => members
  | _ => []

def ofNumber : Number → Json
  | .int n => .int n
  | .real x => .real x

def number? : Json → Option Number
  | .int n => some (.int n)
  | .real x => some (.real x)
  | _ => none

def ofText? : Option String → Json
  | some s => .str s
  | none => .null

end Json

end CallSearch
