import CallSearch.Calendar.Timestamp
import CallSearch.Document.Reading
import CallSearch.Double.Reader

namespace CallSearch

namespace Json

def takeNumber? (width : Nat) (cs : List Char) : Option (Nat × List Char) :=
  let digits := cs.take width
  if digits.length = width ∧ digits.all Text.isAsciiDigit then
    some (Nat.ofDigitChars 10 digits 0, cs.drop width)
  else none

def takeAny? (allowed : String) : List Char → Option (List Char)
  | c :: rest => if allowed.toList.contains c then some rest else none
  | [] => none

def takeDate? (cs : List Char) : Option (Date × List Char) := do
  let (year, cs) ← takeNumber? 4 cs
  let (month, cs) ← takeNumber? 2 (← takeAny? "-" cs)
  let (day, cs) ← takeNumber? 2 (← takeAny? "-" cs)
  return (← Date.of? year month day, cs)

def offsetOf? : List Char → Option (Option Int)
  | [] => some none
  | ['Z'] => some (some 0)
  | ['z'] => some (some 0)
  | sign :: cs => do
    let negative ← if sign == '+' then some false
      else if sign == '-' || sign == '\u2212' then some true
      else none
    let (hours, cs) ← takeNumber? 2 cs
    let (minutes, cs) ← takeNumber? 2 ((takeAny? ":" cs).getD cs)
    if !cs.isEmpty || 23 < hours || 59 < minutes then none
    else
      let seconds : Int := hours * 3600 + minutes * 60
      return some (if negative then -seconds else seconds)

def takeSeconds? (cs : List Char) : Option (Nat × Nat × List Char) :=
  match takeAny? ":" cs with
  | none => some (0, 0, cs)
  | some cs => do
    let (second, cs) ← takeNumber? 2 cs
    match takeAny? ".," cs with
    | none => return (second, 0, cs)
    | some cs =>
      let digits := cs.takeWhile Text.isAsciiDigit
      let kept := digits.take 6
      if digits.isEmpty then none
      else
        let micro := Nat.ofDigitChars 10 kept 0 * Nat.pow 10 (6 - kept.length)
        return (second, micro, cs.dropWhile Text.isAsciiDigit)

def momentOf? (s : String) : Option Moment := do
  let (date, cs) ← takeDate? s.toList
  if cs.isEmpty then return ⟨.startOf date, none⟩
  let (hour, cs) ← takeNumber? 2 (← takeAny? "Tt _" cs)
  let (minute, cs) ← takeNumber? 2 (← takeAny? ":" cs)
  let (second, micro, cs) ← takeSeconds? cs
  let timestamp ← (Timestamp.make date hour minute second micro).toOption
  return ⟨timestamp, ← offsetOf? cs⟩

def secondsLimit : Nat := 20000000000

def earliestSecond : Int := -11676096000

/-- The moment some seconds and microseconds after the beginning of 1970; large numbers of seconds
count milliseconds. -/
def momentOfSeconds? (n : Int) (micros : Nat) : Option Moment := do
  let inMillis := secondsLimit < n.natAbs
  let micros := if inMillis then (n % 1000).toNat * 1000 + micros else micros
  let seconds := (if inMillis then n / 1000 else n) + (micros / 1000000 : Nat)
  if seconds < earliestSecond then none
  else
    let epoch ← Date.of? 1970 1 1
    let date ← epoch.addDays? (seconds / 86400)
    let rest := (seconds % 86400).toNat
    let timestamp ←
      (Timestamp.make date (rest / 3600) (rest / 60 % 60) (rest % 60) (micros % 1000000)).toOption
    return ⟨timestamp, some 0⟩

def microsOf (x : Double) : Nat := ((x.mul (.ofInt 1000000)).round?.getD 0).natAbs

/-- The moment of a floating point number of seconds. From the last whole second that is not after
it, the digits of its fraction are counted forwards, also those of a negative number. -/
def momentOfReal? (x : Double) : Option Moment := do
  momentOfSeconds? (← x.floor?) (microsOf (← x.fraction?))

def addFraction (x : Double) (place : Nat) : List Char → Double
  | [] => x
  | c :: rest =>
    let digit := Nat.ofDigitChars 10 [c] 0
    addFraction (x.add (.ofRatio false digit (Nat.pow 10 place))) (place + 1) rest

def momentOfFraction? (x : Double) : Option Moment := do
  let isMillis := (secondsLimit * Double.unitsPerOne : Nat) < (← x.units?).natAbs
  let x := if isMillis then x.divNat 1000 else x
  let seconds ← x.floor?
  momentOfSeconds? seconds (microsOf (x.add (Double.ofInt seconds).neg))

def momentOfNumeral? (s : String) : Option Moment :=
  let (negative, body) := Literal.takeSign s.toList
  let (whole, fraction) := Text.cutFirst '.' body
  if whole.isEmpty || !(whole ++ fraction.getD []).all Text.isAsciiDigit then none
  else
    let n : Int := Nat.ofDigitChars 10 whole 0
    match fraction with
    | none => momentOfSeconds? (if negative then -n else n) 0
    | some digits =>
      let x := addFraction (.ofInt n) 1 digits
      momentOfFraction? (if negative then x.neg else x)

def readMoment : Json → Reading Moment
  | .str s =>
    ((momentOf? s).orElse fun _ => momentOfNumeral? s).elim (.problem .unreadableTime) .value
  | .int n =>
    if (Double.ofInt? n).isSome then (momentOfSeconds? n 0).elim (.problem .timeOutOfRange) .value
    else .problem .notTime
  | .real x => (momentOfReal? x).elim (.problem .timeOutOfRange) .value
  | _ => .problem .notTime

end Json

end CallSearch
