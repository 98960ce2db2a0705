namespace CallSearch

def isLeapYear (year : Nat) : Bool :=
  year % 4 == 0 && (year % 100 != 0 || year % 400 == 0)

def daysInMonth (year month : Nat) : Nat :=
  if month = 2 then (if isLeapYear year then 29 else 28)
  else if month = 4 ∨ month = 6 ∨ month = 9 ∨ month = 11 then 30
  else 31

def IsDate (year month day : Nat) : Prop :=
  1 ≤ year ∧ year ≤ 9999 ∧ 1 ≤ month ∧ month ≤ 12 ∧ 1 ≤ day ∧ day ≤ daysInMonth year month

instance (year month day : Nat) : Decidable (IsDate year month day) := by
  unfold IsDate; infer_instance

structure Date where
  year : Nat
  month : Nat
  day : Nat
  isDate : IsDate year month day
deriving DecidableEq

inductive CalendarError where
  | malformed (text : String)
  | year (n : Nat)
  | month
  | day
  | hour
  | minute
  | second
  | offset (micros : Int)
deriving DecidableEq

namespace Date

instance : Inhabited Date := ⟨1, 1, 1, by decide⟩

def of? (year month day : Nat) : Option Date :=
  if h : IsDate year month day then some ⟨year, month, day, h⟩ else none

def make (year month day : Nat) : Except CalendarError Date :=
  if h : IsDate year month day then .ok ⟨year, month, day, h⟩
  else if year < 1 ∨ 9999 < year then .error (.year year)
  else if month < 1 ∨ 12 < month then .error .month
  else .error .day

def key (d : Date) : Nat := (d.year * 13 + d.month) * 32 + d.day

def next? (d : Date) : Option Date :=
  (of? d.year d.month (d.day + 1)).orElse fun _ =>
    (of? d.year (d.month + 1) 1).orElse fun _ => of? (d.year + 1) 1 1

def previous? (d : Date) : Option Date :=
  (of? d.year d.month (d.day - 1)).orElse fun _ =>
    (of? d.year (d.month - 1) (daysInMonth d.year (d.month - 1))).orElse fun _ =>
      of? (d.year - 1) 12 31

def daysBeforeYear (year : Nat) : Nat :=
  let y := year - 1
  y * 365 + y / 4 - y / 100 + y / 400

def daysBeforeMonth (year month : Nat) : Nat :=
  ((List.range (month - 1)).map fun m => daysInMonth year (m + 1)).foldl (· + ·) 0

def ordinal (d : Date) : Nat :=
  daysBeforeYear d.year + daysBeforeMonth d.year d.month + d.day

def monthOfDay (year n : Nat) : Nat → Nat
  | 0 => 1
  | month + 1 => if daysBeforeMonth year (month + 1) < n then month + 1 else monthOfDay year n month

def ofOrdinal? (n : Nat) : Option Date :=
  let guess := n * 400 / 146097 + 1
  let year :=
    if n ≤ daysBeforeYear guess then guess - 1
    else if daysBeforeYear (guess + 1) < n then guess + 1
    else guess
  let dayOfYear := n - daysBeforeYear year
  let month := monthOfDay year dayOfYear 12
  of? year month (dayOfYear - daysBeforeMonth year month)

def addDays? (d : Date) (days : Int) : Option Date :=
  let n : Int := d.ordinal + days
  if n < 1 then none else ofOrdinal? n.toNat

def weekday (d : Date) : Nat := (d.ordinal + 6) % 7

def padded (width n : Nat) : List Char :=
  let digits := Nat.toDigits 10 n
  List.replicate (width - digits.length) '0' ++ digits

def isoChars (d : Date) : List Char :=
  padded 4 d.year ++ '-' :: (padded 2 d.month ++ '-' :: padded 2 d.day)

def iso (d : Date) : String := String.ofList d.isoChars

end Date

end CallSearch
