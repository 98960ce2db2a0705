import CallSearch.Document.Numeral
import CallSearch.Document.Reading

namespace CallSearch

namespace Json

def truthOf? (s : String) : Option Bool :=
  let word := s.toList.map Char.toLower
  if ["1", "t", "y", "on", "yes", "true"].any (·.toList == word) then some true
  else if ["0", "f", "n", "no", "off", "false"].any (·.toList == word) then some false
  else none

def truthOfInt? (n : Int) : Option Bool :=
  if n = 1 then some true else if n = 0 then some false else none

def realLimit : Nat := 9223372036854775808

def readBool : Json → Reading Bool
  | .bool b => .value b
  | .int n => (truthOfInt? n).elim (.problem .unreadableBool) .value
  | .real x =>
    match x.toInt? with
    | some n =>
      if n.natAbs < realLimit then (truthOfInt? n).elim (.problem .unreadableBool) .value
      else .problem .notBool
    | none => .problem .notBool
  | .str s => (truthOf? s).elim (.problem .unreadableBool) .value
  | _ => .problem .notBool

def readInt : Json → Reading Int
  | .int n => .value n
  | .bool b => .value (if b then 1 else 0)
  | .real x =>
    if x.isFinite then
      match x.toInt? with
      | some n => if n.natAbs < realLimit then .value n else .problem .oversizedInt
      | none => .problem .fractionalInt
    else .problem .infinite
  | .str s =>
    match Numeral.whole s with
    | .ok n => .value n
    | .error .malformed => .problem .unreadableInt
    | .error .tooLong => .problem .oversizedInt
  | _ => .problem .notInt

def readReal : Json → Reading Double
  | .real x => .value x
  | .int n => (Double.ofInt? n).elim (.problem .notReal) .value
  | .bool b => .value (Double.ofInt (if b then 1 else 0))
  | .str s => (Numeral.real? s).elim (.problem .unreadableReal) .value
  | _ => .problem .notReal

end Json

def Reading.ensure {α : Type} (test : α → Bool) (problem : Problem) (a : Reading α) : Reading α :=
  a.andThen fun a => if test a then .value a else .problem problem

end CallSearch
