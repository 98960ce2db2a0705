import CallSearch.Double.Basic
import CallSearch.Text.Blank
import CallSearch.Text.Digit

namespace CallSearch

structure Literal where
  negative : Bool
  digits : Nat
  scale : Int
deriving DecidableEq

namespace Literal

/-- The nearest floating point number. Numbers far outside the range are settled by the place of
their first digit alone. -/
def toDouble (literal : Literal) : Double :=
  if literal.digits = 0 then Double.signedZero literal.negative
  else
    let place : Int := (Nat.toDigits 10 literal.digits).length + literal.scale
    if 310 < place then .infinite literal.negative
    else if place < -330 then Double.signedZero literal.negative
    else if 0 ≤ literal.scale then
      Double.ofRatio literal.negative (literal.digits * Nat.pow 10 literal.scale.toNat) 1
    else Double.ofRatio literal.negative literal.digits (Nat.pow 10 (-literal.scale).toNat)

def takeSign : List Char → Bool × List Char
  | '-' :: rest => (true, rest)
  | '+' :: rest => (false, rest)
  | cs => (false, cs)

def takeExponent : List Char → Int × List Char
  | [] => (0, [])
  | cs@(e :: rest) =>
    if e == 'e' || e == 'E' then
      let (negative, body) := takeSign rest
      let digits := body.takeWhile Text.isAsciiDigit
      if digits.isEmpty then (0, cs)
      else
        let n : Int := Nat.ofDigitChars 10 digits 0
        (if negative then -n else n, body.dropWhile Text.isAsciiDigit)
    else (0, cs)

def takeFraction : List Char → List Char × List Char
  | '.' :: rest => (rest.takeWhile Text.isAsciiDigit, rest.dropWhile Text.isAsciiDigit)
  | cs => ([], cs)

/-- Takes the longest number off the start: a sign, digits with or without a point, of which there
is at least one, and an exponent. -/
def scan (cs : List Char) : Option (Literal × List Char) :=
  let (negative, body) := takeSign cs
  let whole := body.takeWhile Text.isAsciiDigit
  let (fraction, rest) := takeFraction (body.dropWhile Text.isAsciiDigit)
  if whole.isEmpty && fraction.isEmpty then none
  else
    let (exponent, rest) := takeExponent rest
    some (⟨negative, Nat.ofDigitChars 10 (whole ++ fraction) 0, exponent - fraction.length⟩, rest)

end Literal

namespace Double

/-- Digits of all scripts become those of ASCII and blanks outside ASCII become spaces; other
characters outside ASCII become question marks, which no number contains. -/
def plainChar (c : Char) : Char :=
  if c.toNat < 127 then c
  else if Text.isBlank c then ' '
  else
    match Text.digitValue? c with
    | some n => Nat.digitChar n
    | none => '?'

/-- Removes underscores, each of which has to stand between two digits. -/
def withoutUnderscores? : Option Char → List Char → Option (List Char)
  | previous, [] => if previous == some '_' then none else some []
  | previous, c :: rest =>
    if c == '_' then
      if previous.any Text.isAsciiDigit then withoutUnderscores? (some c) rest else none
    else if previous == some '_' && !Text.isAsciiDigit c then none
    else (withoutUnderscores? (some c) rest).map (c :: ·)

def readWhole? (cs : List Char) : Option Double :=
  let (negative, body) := Literal.takeSign cs
  let word := body.map Char.toLower
  if word == "inf".toList || word == "infinity".toList then some (.infinite negative)
  else if word == "nan".toList then some .nan
  else
    match Literal.scan cs with
    | some (literal, []) => some literal.toDouble
    | _ => none

def ofText? (s : String) : Option Double :=
  let plain := Text.stripChars Text.isPlainBlank (s.toList.map plainChar)
  (withoutUnderscores? none plain).bind readWhole?

end Double

end CallSearch
