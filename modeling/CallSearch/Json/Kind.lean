import CallSearch.Calendar.Iso
import CallSearch.Double.Reader
import CallSearch.Json.Basic

namespace CallSearch

inductive Kind where
  | string
  | number
  | boolean
  | date
  | object
  | array
deriving DecidableEq, Inhabited

namespace Kind

def name : Kind → String
  | .string => "string"
  | .number => "number"
  | .boolean => "boolean"
  | .date => "date"
  | .object => "object"
  | .array => "array"

def all : List Kind := [.string, .number, .boolean, .date, .object, .array]

def ofName? (name : String) : Option Kind := all.find? (·.name == name)

end Kind

namespace Text

def digitsValue? (cs : List Char) : Option Nat :=
  cs.foldl (fun total? c => do
    let total ← total?
    let digit ← digitValue? c
    return total * 10 + digit) (some 0)

def hasDateShape (cs : List Char) : Bool :=
  cs.length = 10 && (cs.zipIdx.all fun (c, i) =>
    if i = 4 || i = 7 then c == '-' else isDigit c)

/-- The date that ten characters name. The digits of the year and the last digit of a day from 10
to 29 may be of any script, all others are of ASCII. -/
def namedDate? (cs : List Char) : Option Date := do
  let year ← digitsValue? (cs.take 4)
  let monthDigits := (cs.drop 5).take 2
  let dayDigits := cs.drop 8
  let tens := dayDigits.headD '0'
  let plainDay := if tens == '1' || tens == '2' then [tens] else dayDigits
  if monthDigits.all isAsciiDigit && plainDay.all isAsciiDigit then
    let month ← digitsValue? monthDigits
    let day ← digitsValue? dayDigits
    Date.of? year month day
  else none

def withOffsets (s : String) : String :=
  String.ofList (s.toList.flatMap fun c => if c == 'Z' then "+00:00".toList else [c])

/-- Whether a text begins with the digits of a date and is a date, alone or with a time, or at
least names one with its first ten characters. -/
def looksLikeDate (s : String) : Bool :=
  let head := s.toList.take 10
  hasDateShape head &&
    ((Iso.timestamp (withOffsets s)).toOption.isSome || (namedDate? head).isSome)

end Text

namespace Json

/-- The kind of field that a value makes. Null says nothing and counts as text. -/
def kind : Json → Kind
  | .null => .string
  | .bool _ => .boolean
  | .int _ => .number
  | .real _ => .number
  | .arr _ => .array
  | .obj _ => .object
  | .str s => if Text.looksLikeDate s then .date else .string

/-- The floating point number that a value stands for; texts are read, and booleans stand for
none. -/
def toDouble? : Json → Except NumberError (Option Double)
  | .int n => (Number.int n).toDouble.map some
  | .real x => .ok (some x)
  | .str s => .ok (Double.ofText? s)
  | _ => .ok none

end Json

end CallSearch
