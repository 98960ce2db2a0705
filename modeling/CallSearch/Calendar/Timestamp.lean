import CallSearch.Calendar.Date

namespace CallSearch

structure Timestamp where
  date : Date
  hour : Fin 24
  minute : Fin 60
  second : Fin 60
  micro : Fin 1000000
deriving DecidableEq, Inhabited

/-- A timestamp, with the seconds by which its clock is ahead of universal time if they are
known. -/
structure Moment where
  timestamp : Timestamp
  offset : Option Int
deriving DecidableEq, Inhabited

namespace Timestamp

def microOfDay (t : Timestamp) : Nat :=
  ((t.hour.val * 60 + t.minute.val) * 60 + t.second.val) * 1000000 + t.micro.val

def key (t : Timestamp) : Nat := t.date.key * 86400000000 + t.microOfDay

def startOf (d : Date) : Timestamp := ⟨d, 0, 0, 0, 0⟩

def make (d : Date) (hour minute second micro : Nat) : Except CalendarError Timestamp :=
  if hh : hour < 24 then
    if hm : minute < 60 then
      if hs : second < 60 then .ok ⟨d, ⟨hour, hh⟩, ⟨minute, hm⟩, ⟨second, hs⟩, Fin.ofNat _ micro⟩
      else .error .second
    else .error .minute
  else .error .hour

def clockChars (t : Timestamp) : List Char :=
  Date.padded 2 t.hour.val ++ ':' :: (Date.padded 2 t.minute.val ++ ':' ::
    Date.padded 2 t.second.val)

def isoChars (t : Timestamp) : List Char :=
  t.date.isoChars ++ 'T' :: (t.clockChars ++
    if t.micro.val = 0 then [] else '.' :: Date.padded 6 t.micro.val)

def iso (t : Timestamp) : String := String.ofList t.isoChars

def storeText (t : Timestamp) : String :=
  String.ofList (t.date.isoChars ++ ' ' :: (t.clockChars ++ '.' :: Date.padded 6 t.micro.val))

def addMinutes? (t : Timestamp) (minutes : Nat) : Option Timestamp :=
  let total := t.hour.val * 60 + t.minute.val + minutes
  (t.date.addDays? (total / 1440)).map fun date =>
    { t with
      date := date
      hour := Fin.ofNat _ (total / 60 % 24)
      minute := Fin.ofNat _ (total % 60) }

def subDays? (t : Timestamp) (days : Int) : Option Timestamp :=
  (t.date.addDays? (-days)).map fun date => { t with date := date }

end Timestamp

namespace Moment

def offsetChars (seconds : Int) : List Char :=
  let n := seconds.natAbs
  (if seconds < 0 then '-' else '+') :: (Date.padded 2 (n / 3600) ++ ':' ::
    (Date.padded 2 (n / 60 % 60) ++
      if n % 60 = 0 then [] else ':' :: Date.padded 2 (n % 60)))

def iso (m : Moment) : String :=
  String.ofList (m.timestamp.isoChars ++ (m.offset.map offsetChars).getD [])

end Moment

end CallSearch
