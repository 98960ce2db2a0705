import CallSearch.Calendar.Timestamp
import CallSearch.Text.Digit
import CallSearch.Text.Quoted

namespace CallSearch

def CalendarError.message : CalendarError → String
  | .malformed text => "Invalid isoformat string: " ++ Text.quoted text
  | .year n => "year " ++ toString n ++ " is out of range"
  | .month => "month must be in 1..12"
  | .day => "day is out of range for month"
  | .hour => "hour must be in 0..23"
  | .minute => "minute must be in 0..59"
  | .second => "second must be in 0..59"
  | .offset micros =>
    let days := micros / 86400000000
    let seconds := micros % 86400000000 / 1000000
    let rest := micros % 1000000
    "offset must be a timedelta strictly between -timedelta(hours=24) and timedelta(hours=24), "
      ++ "not datetime.timedelta(days=" ++ toString days
      ++ (if seconds = 0 then "" else ", seconds=" ++ toString seconds)
      ++ (if rest = 0 then "" else ", microseconds=" ++ toString rest) ++ ")."

namespace Iso

def takeDigits : Nat → List Char → Option (Nat × List Char)
  | width, cs =>
    let digits := cs.take width
    if digits.length = width ∧ digits.all Text.isAsciiDigit then
      some (Nat.ofDigitChars 10 digits 0, cs.drop width)
    else none

structure Fields where
  year : Nat
  month : Nat
  day : Nat

/-- The ordinal number of the Monday of the first week of a year, which is the week with its first
Thursday. -/
def firstMonday (year : Nat) : Nat :=
  let first := Date.daysBeforeYear year + 1
  let weekday := (first + 6) % 7
  if 3 < weekday then first + 7 - weekday else first - weekday

def ofWeek? (year week day : Nat) : Option Fields :=
  let first := Date.daysBeforeYear year + 1
  let weekday := (first + 6) % 7
  let long := weekday = 3 ∨ (weekday = 2 ∧ isLeapYear year)
  if year = 0 ∨ week = 0 ∨ 53 < week ∨ (week = 53 ∧ ¬ long) ∨ day = 0 ∨ 7 < day then none
  else
    let n := firstMonday year + (week - 1) * 7 + day - 1
    match Date.ofOrdinal? n with
    | some d => some ⟨d.year, d.month, d.day⟩
    | none => some ⟨year + 1, 1, 1⟩

/-- Reads a date; `length` tells whether a week is followed by a day of the week. Characters after
the date are not looked at. -/
def readDate? (length : Nat) (cs : List Char) : Option Fields := do
  let (year, rest) ← takeDigits 4 cs
  let hyphens := rest.head? == some '-'
  let rest := if hyphens then rest.drop 1 else rest
  if rest.head? == some 'W' then
    let (week, rest) ← takeDigits 2 (rest.drop 1)
    if (if hyphens then 8 else 7) < length then
      let rest ← if hyphens then (if rest.head? == some '-' then some (rest.drop 1) else none)
        else some rest
      let (day, _) ← takeDigits 1 rest
      ofWeek? year week day
    else ofWeek? year week 1
  else
    let (month, rest) ← takeDigits 2 rest
    let rest ← if hyphens then (if rest.head? == some '-' then some (rest.drop 1) else none)
      else some rest
    let (day, _) ← takeDigits 2 rest
    some ⟨year, month, day⟩

def date (s : String) : Except CalendarError Date :=
  let length := s.utf8ByteSize
  if length = 7 ∨ length = 8 ∨ length = 10 then
    match readDate? length s.toList with
    | some fields => Date.make fields.year fields.month fields.day
    | none => .error (.malformed s)
  else .error (.malformed s)

def dateLength (cs : List Char) : Nat :=
  let length := cs.length
  if length = 7 then 7
  else if cs[4]? == some '-' then
    if cs[5]? == some 'W' then
      if cs[8]? == some '-' then
        if 10 < length && cs[10]?.any Text.isAsciiDigit then 8 else 10
      else 8
    else 10
  else if cs[4]? == some 'W' then
    let digitsEnd := 7 + ((cs.drop 7).takeWhile Text.isAsciiDigit).length
    if digitsEnd < 9 then digitsEnd
    else if digitsEnd % 2 = 0 then 7
    else 8
  else 8

structure Clock where
  hour : Nat
  minute : Nat
  second : Nat
  micro : Nat
  leftOver : Bool

def readFraction? (more : Bool) (cs : List Char) : Option (Nat × Bool) :=
  let width := min cs.length 6
  (takeDigits width cs).map fun (n, rest) =>
    let leftOver :=
      match rest.dropWhile Text.isAsciiDigit with
      | [] => more
      | c :: _ => c != '\x00'
    (n * Nat.pow 10 (6 - width), leftOver)

def readPairs? (more : Bool) : Nat → Option Bool → List Char → Option (List Nat × Nat × Bool)
  | 0, _, cs => (readFraction? more cs).map fun (micro, leftOver) => ([], micro, leftOver)
  | count + 1, colons?, cs => do
    let (n, rest) ← takeDigits 2 cs
    match rest with
    | [] => some ([n], 0, more)
    | c :: after =>
      let colons := colons?.getD (c == ':')
      if after.isEmpty && c.toNat < 128 then some ([n], 0, c != '\x00')
      else if colons && c == ':' then
        (readPairs? more count (some colons) after).map fun (pairs, tail) => (n :: pairs, tail)
      else if c == '.' || c == ',' then
        (readFraction? more after).map fun (micro, leftOver) => ([n], micro, leftOver)
      else if !colons then
        (readPairs? more count (some colons) rest).map fun (pairs, tail) => (n :: pairs, tail)
      else none

def readClock? (more : Bool) (cs : List Char) : Option Clock :=
  (readPairs? more 3 none cs).map fun (pairs, micro, leftOver) =>
    ⟨pairs.headD 0, (pairs.drop 1).headD 0, (pairs.drop 2).headD 0, micro, leftOver⟩

def beginsOffset (c : Char) : Bool := c == '+' || c == '-' || c == 'Z'

def readTime? (cs : List Char) : Option (Clock × Option Int) := do
  let body := cs.takeWhile (!beginsOffset ·)
  let tail := cs.dropWhile (!beginsOffset ·)
  let clock ← readClock? (!tail.isEmpty) body
  match tail with
  | [] => if clock.leftOver then none else some (clock, none)
  | 'Z' :: rest => if rest.headD '\x00' == '\x00' then some (clock, some 0) else none
  | sign :: rest =>
    let shift ← readClock? false rest
    if shift.leftOver then none
    else
      let seconds := shift.hour * 3600 + shift.minute * 60 + shift.second
      let micros : Int := seconds * 1000000 + shift.micro
      some (clock, some (if sign == '-' then -micros else micros))

/-- A text that is a date, or a date and a time after one character of any kind. The time is the one
that the clock shows: an offset has to be less than a day, but does not change it. -/
def timestamp (s : String) : Except CalendarError Timestamp := do
  let cs := s.toList
  let length := dateLength cs
  let some fields := readDate? length cs | throw (.malformed s)
  let time? :=
    match cs.drop length with
    | [] => some none
    | _ :: time => (readTime? time).map some
  match time? with
  | none => throw (.malformed s)
  | some none => return .startOf (← Date.make fields.year fields.month fields.day)
  | some (some (clock, offset)) =>
    if let some micros := offset then
      if 86400000000 ≤ micros.natAbs then throw (.offset micros)
    let date ← Date.make fields.year fields.month fields.day
    Timestamp.make date clock.hour clock.minute clock.second clock.micro

end Iso

end CallSearch
