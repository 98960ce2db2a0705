import CallSearch.Double.Basic

namespace CallSearch

/-- The number `digits * 10 ^ (leading + 1 - width)`, where `width` is the number of digits: its
first digit counts multiples of `10 ^ leading`. -/
structure Decimal where
  digits : Nat
  width : Nat
  leading : Int
deriving DecidableEq

namespace Decimal

def chars (d : Decimal) : List Char := Nat.toDigits 10 d.digits

/-- The greatest `k` with `10 ^ k * denominator ≤ numerator`, searched upwards from `k`. -/
def leadingFrom (numerator denominator : Nat) : Nat → Int → Int
  | 0, k => k
  | fuel + 1, k =>
    let next := k + 1
    let reached :=
      if 0 ≤ next then Nat.pow 10 next.toNat * denominator ≤ numerator
      else denominator ≤ numerator * Nat.pow 10 (-next).toNat
    if reached then leadingFrom numerator denominator fuel next else k

def leadingOf (numerator denominator : Nat) : Int :=
  let estimate : Int := (((numerator.log2 : Int) - denominator.log2) * 30103) / 100000
  leadingFrom numerator denominator 4 (estimate - 2)

def scaled (numerator denominator : Nat) (exponent : Int) : Nat × Nat :=
  if 0 ≤ exponent then (numerator, denominator * Nat.pow 10 exponent.toNat)
  else (numerator * Nat.pow 10 (-exponent).toNat, denominator)

/-- The decimal of some digits that were rounded to a width. They may have become one digit more,
which is a power of ten. -/
def ofRounded (digits width : Nat) (leading : Int) : Decimal :=
  if digits = Nat.pow 10 width then ⟨Nat.pow 10 (width - 1), width, leading + 1⟩
  else ⟨digits, width, leading⟩

def rounded (numerator denominator width : Nat) : Decimal :=
  let leading := leadingOf numerator denominator
  let (n, d) := scaled numerator denominator (leading + 1 - width)
  let digits := (2 * n + d) / (2 * d)
  ofRounded digits width leading

def trimmed : Nat → Decimal → Decimal
  | 0, d => d
  | fuel + 1, d =>
    if 1 < d.width ∧ d.digits % 10 = 0 then trimmed fuel ⟨d.digits / 10, d.width - 1, d.leading⟩
    else d

end Decimal

namespace Double

/-- Four times the units of a magnitude, and of the two ends of the interval of numbers that round
to it. -/
def roundingInterval (exponent fraction : Nat) : Nat × Nat × Nat :=
  let value := 4 * unitsOf exponent fraction
  let half := 2 * Nat.pow 2 (exponent - 1)
  let below := if fraction = 0 ∧ 1 < exponent then half / 2 else half
  (value - below, value, value + half)

/-- The decimal of `width` digits nearest to a magnitude among those that read back as it. -/
def ofWidth? (exponent fraction width : Nat) : Option Decimal :=
  let (low, value, high) := roundingInterval exponent fraction
  let denominator := 4 * unitsPerOne
  let leading := Decimal.leadingOf value denominator
  let place := leading + 1 - width
  let (n, d) := Decimal.scaled value denominator place
  let inclusive := fraction % 2 = 0
  let readsBack (candidate : Nat) : Bool :=
    let reached (bound : Nat) (strict : Bool) : Bool :=
      let (n, d) := Decimal.scaled bound denominator place
      if strict then n < candidate * d else n ≤ candidate * d
    let passed (bound : Nat) (strict : Bool) : Bool :=
      let (n, d) := Decimal.scaled bound denominator place
      if strict then candidate * d < n else candidate * d ≤ n
    0 < candidate && reached low (!inclusive) && passed high (!inclusive)
  let floor := n / d
  let nearest := roundDiv n d
  let other := if nearest = floor then floor + 1 else floor
  let found :=
    if readsBack nearest then some nearest
    else if readsBack other then some other
    else none
  found.map fun digits =>
    Decimal.ofRounded digits width leading

/-- The decimal with the fewest digits that reads back as a positive magnitude. Seventeen digits
always suffice. -/
def shortest (exponent fraction : Nat) : Decimal :=
  let widths := (List.range 17).map (· + 1)
  match widths.findSome? (ofWidth? exponent fraction) with
  | some d => d.trimmed 17
  | none => (Decimal.rounded (unitsOf exponent fraction) unitsPerOne 17).trimmed 17

end Double

namespace Decimal

/-- How a number is written: the first place that is too high, and the lowest place, for writing
without exponent; whether a mantissa of one digit gets `.0`; the words for the other values. -/
structure Layout where
  positionalBelow : Int
  positionalFrom : Int
  pointInMantissa : Bool
  negativeZero : Bool
  nanText : String
  infinityText : String

def exponentChars (n : Nat) : List Char :=
  if n < 10 then '0' :: Nat.toDigits 10 n else Nat.toDigits 10 n

def write (layout : Layout) (d : Decimal) : List Char :=
  let chars := d.chars
  if layout.positionalFrom ≤ d.leading ∧ d.leading < layout.positionalBelow then
    if d.leading < 0 then
      '0' :: '.' :: (List.replicate ((-d.leading).toNat - 1) '0' ++ chars)
    else
      let whole := d.leading.toNat + 1
      if chars.length ≤ whole then
        chars ++ List.replicate (whole - chars.length) '0' ++ ['.', '0']
      else chars.take whole ++ '.' :: chars.drop whole
  else
    let mantissa :=
      match chars with
      | [c] => if layout.pointInMantissa then [c, '.', '0'] else [c]
      | c :: rest => c :: '.' :: rest
      | [] => []
    let sign := if d.leading < 0 then '-' else '+'
    mantissa ++ 'e' :: sign :: exponentChars d.leading.natAbs

end Decimal

namespace Double

def writeWith (layout : Decimal.Layout) (digits : Nat → Nat → Decimal) : Double → List Char
  | .nan => layout.nanText.toList
  | .infinite negative => (if negative then ['-'] else []) ++ layout.infinityText.toList
  | .finite negative exponent fraction =>
    if exponent.val = 0 ∧ fraction.val = 0 then
      (if negative && layout.negativeZero then ['-'] else []) ++ ['0', '.', '0']
    else
      (if negative then ['-'] else []) ++ Decimal.write layout (digits exponent.val fraction.val)

def documentLayout : Decimal.Layout where
  positionalBelow := 16
  positionalFrom := -4
  pointInMantissa := false
  negativeZero := true
  nanText := "NaN"
  infinityText := "Infinity"

def displayLayout : Decimal.Layout :=
  { documentLayout with nanText := "nan", infinityText := "inf" }

def storeLayout : Decimal.Layout where
  positionalBelow := 15
  positionalFrom := -4
  pointInMantissa := true
  negativeZero := false
  nanText := ""
  infinityText := "Inf"

def documentChars (x : Double) : List Char := x.writeWith documentLayout shortest

def display (x : Double) : String := String.ofList (x.writeWith displayLayout shortest)

def fixed (places : Nat) (x : Double) : String :=
  match x with
  | .nan => "nan"
  | .infinite negative => if negative then "-inf" else "inf"
  | .finite negative exponent fraction =>
    let hundredths := roundDiv (unitsOf exponent.val fraction.val * Nat.pow 10 places) unitsPerOne
    let chars := Nat.toDigits 10 hundredths
    let padded := List.replicate (places + 1 - chars.length) '0' ++ chars
    let whole := padded.length - places
    String.ofList
      ((if negative then ['-'] else []) ++ padded.take whole ++ '.' :: padded.drop whole)

end Double

end CallSearch
