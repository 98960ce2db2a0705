import CallSearch.Double.Reader

namespace CallSearch

namespace Numeral

inductive Fault where
  | malformed
  | tooLong
deriving DecidableEq

def isOuterBlank (c : Char) : Bool :=
  Text.isBlank c && !(0x1c ≤ c.toNat && c.toNat ≤ 0x1f)

def trimmed (s : String) : List Char := Text.stripChars isOuterBlank s.toList

def withoutSeparators? (cs : List Char) : Option (List Char) :=
  if cs.head? == some '_' || cs.getLast? == some '_' || Text.occursIn ['_', '_'] cs then none
  else some (cs.filter (· != '_'))

def withoutZeroFraction (cs : List Char) : List Char :=
  match Text.cutFirst '.' cs with
  | (whole, some (zero :: zeros)) => if (zero :: zeros).all (· == '0') then whole else cs
  | _ => cs

def isLeading (c : Char) : Bool := ('1' ≤ c && c ≤ '9') || c == '-'

/-- What remains after a leading zero. Zeros and underscores are passed over, but the last of them
stays when a point or the end follows. -/
def afterZero? (previous : Char) : List Char → Option (List Char)
  | [] => some [previous]
  | c :: rest =>
    if c == '0' || c == '_' then afterZero? c rest
    else if c == '.' then some (previous :: c :: rest)
    else if isLeading c then some (c :: rest)
    else none

def withoutZeros? : List Char → Option (List Char)
  | [] => none
  | c :: rest =>
    if c == '0' then afterZero? c rest
    else if isLeading c then some (c :: rest)
    else none

def shortestBody? (cs : List Char) : Option (List Char) :=
  (withoutZeros? cs).map fun cs =>
    let cs := withoutZeroFraction cs
    (withoutSeparators? cs).getD cs

def shortest? : List Char → Option (List Char)
  | '+' :: '-' :: _ => none
  | '+' :: cs => shortestBody? cs
  | '-' :: cs => (shortestBody? cs).map ('-' :: ·)
  | cs => shortestBody? cs

def lengthLimit : Nat := 4300

/-- The whole number of a shortest form: a minus sign if it is negative, and its digits, of which
zero is the first only when it is the last as well. -/
def ofShortest (cs : List Char) : Except Fault Int :=
  let negative := cs.head? == some '-'
  let digits := if negative then cs.drop 1 else cs
  let run := digits.takeWhile Text.isAsciiDigit
  if lengthLimit < run.length + (if negative then 1 else 0) then .error .tooLong
  else if run.isEmpty || run.length != digits.length || (run.head? == some '0' && 1 < run.length)
  then .error .malformed
  else
    let n : Int := Nat.ofDigitChars 10 run 0
    .ok (if negative then -n else n)

def whole (s : String) : Except Fault Int :=
  (shortest? (trimmed s)).elim (.error .malformed) ofShortest

/-- The number that a text says. It may have blanks around it or underscores between its
characters, but not both. -/
def real? (s : String) : Option Double :=
  (Double.readWhole? (trimmed s)).orElse fun _ =>
    (withoutSeparators? s.toList).bind Double.readWhole?

end Numeral

end CallSearch
