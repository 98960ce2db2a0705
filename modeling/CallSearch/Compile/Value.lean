import CallSearch.Calendar.Iso
import CallSearch.Double.Reader
import CallSearch.Filter.Rule
import CallSearch.Number
import CallSearch.Text.Lowercase

namespace CallSearch.Compile

inductive Stop where
  | dayOutOfRange
  | unreadableNumber (text : String)
  | unknownToggle (shown : String)
deriving DecidableEq

def Stop.message : Stop → String
  | .dayOutOfRange => "date value out of range"
  | .unreadableNumber text => "could not convert string to float: " ++ Text.quoted text
  | .unknownToggle shown => shown ++ " is not a valid AnomalyToggle"

/-- Why a rule gives no predicates: a fault of its own, or one that stops everything. -/
inductive Failure where
  | fault (fault : RuleFault)
  | stop (stop : Stop)
deriving DecidableEq

def dayOr (day? : Option Date) : Except Failure Date :=
  day?.elim (.error (.stop .dayOutOfRange)) .ok

def parseDay (now : Timestamp) (raw : String) : Except Failure Date :=
  let word := Text.lower (Text.strip raw)
  if word == "today" then .ok now.date
  else if word == "yesterday" then dayOr now.date.previous?
  else
    match Iso.date (String.ofList (word.toList.take 10)) with
    | .ok day => .ok day
    | .error _ => .error (.fault (.invalidDate raw))

def digitLimit : Nat := 4300

def wholeNumber? (cs : List Char) : Option Int :=
  let (negative, digits) := Literal.takeSign cs
  if digits.isEmpty || digitLimit < digits.length then none
  else
    (digits.mapM Text.digitValue?).map fun values =>
      let n : Nat := values.foldl (fun total digit => total * 10 + digit) 0
      if negative then -(n : Int) else n

def isWhole (cs : List Char) : Bool :=
  let digits := (Literal.takeSign cs).2
  !digits.isEmpty && digits.all Text.isDigit

def parseNumber (raw : String) : Except Failure Number :=
  let cs := raw.toList
  let number? :=
    if isWhole cs then (wholeNumber? cs).map Number.int else (Double.ofText? raw).map Number.real
  number?.elim (.error (.fault (.invalidNumber raw))) .ok

def parseRange (value : String) : Except Failure (String × String) :=
  match Text.cut ',' value with
  | (low, some high) =>
    if Text.isBlankText low || Text.isBlankText high then .error (.fault (.invalidRange value))
    else .ok (Text.strip low, Text.strip high)
  | (_, none) => .error (.fault (.invalidRange value))

def exponentPart (cs : List Char) : List Char :=
  match cs with
  | e :: rest =>
    if e == 'e' || e == 'E' then
      let sign := rest.takeWhile fun c => c == '+' || c == '-'
      let digits := (rest.drop sign.length).takeWhile Text.isDigit
      if sign.length ≤ 1 && !digits.isEmpty then e :: (sign ++ digits) else []
    else []
  | [] => []

def mantissaPart (cs : List Char) : List Char :=
  let whole := cs.takeWhile Text.isDigit
  match cs.dropWhile Text.isDigit with
  | '.' :: rest =>
    let fraction := rest.takeWhile Text.isDigit
    if whole.isEmpty && fraction.isEmpty then [] else whole ++ '.' :: fraction
  | _ => whole

def numberPart? (cs : List Char) : Option (List Char) :=
  let blanks := cs.takeWhile Text.isBlank
  let body := cs.drop blanks.length
  let sign := (body.take 1).takeWhile fun c => c == '+' || c == '-'
  let mantissa := mantissaPart (body.drop sign.length)
  if mantissa.isEmpty then none
  else
    let head := blanks ++ sign ++ mantissa
    some (head ++ exponentPart (cs.drop head.length))

def leadingNumber (s : String) : Except Stop (Option Double) :=
  match numberPart? s.toList with
  | none => .ok none
  | some part =>
    match Double.ofText? (String.ofList part) with
    | some x => .ok (some x)
    | none => .error (.unreadableNumber (String.ofList part))

end CallSearch.Compile
