import CallSearch.Double.Decimal
import CallSearch.Double.Reader

namespace CallSearch

/-- The number `significand * 2 ^ exponent` in a longer format, of 64 bits, in which the store reads
and writes decimals. It scales by powers of ten that are rounded themselves, and each product is
rounded again, so that not even short decimals come out as the nearest floating point numbers. -/
structure Extended where
  significand : Nat
  exponent : Int
deriving DecidableEq

namespace Extended

def ofNat (n : Nat) : Extended := ⟨n, 0⟩

def round (significand : Nat) (exponent : Int) : Extended :=
  let surplus := significand.log2 - 63
  ⟨Double.roundDiv significand (Nat.pow 2 surplus), exponent + surplus⟩

def mul (x y : Extended) : Extended :=
  round (x.significand * y.significand) (x.exponent + y.exponent)

def ratio (x : Extended) : Nat × Nat :=
  if 0 ≤ x.exponent then (x.significand * Nat.pow 2 x.exponent.toNat, 1)
  else (x.significand, Nat.pow 2 (-x.exponent).toNat)

def le (x y : Extended) : Bool :=
  let (n, d) := x.ratio
  let (n', d') := y.ratio
  n * d' ≤ n' * d

def floor (x : Extended) : Nat :=
  let (n, d) := x.ratio
  n / d

def toDouble (negative : Bool) (x : Extended) : Double :=
  let (n, d) := x.ratio
  if Double.largest * d < n then .infinite negative else Double.ofRatio negative n d

structure Powers where
  hundred : Extended
  ten : Extended
  one : Extended

def upwards : Powers where
  hundred := ⟨0x924d692ca61be758, 269⟩
  ten := ofNat 10000000000
  one := ofNat 10

def downwards : Powers where
  hundred := ⟨0xdff9772470297ebd, -396⟩
  ten := ⟨0xdbe6fecebdedd5bf, -97⟩
  one := ⟨0xcccccccccccccccd, -67⟩

def scale (powers : Powers) (places : Nat) (x : Extended) : Extended :=
  let x := Nat.repeat (mul · powers.hundred) (places / 100) x
  let x := Nat.repeat (mul · powers.ten) (places % 100 / 10) x
  Nat.repeat (mul · powers.one) (places % 10) x

def scaleWhile (test : Extended → Bool) (power : Extended) (places : Int) :
    Nat → Extended × Int → Extended × Int
  | 0, state => state
  | fuel + 1, (x, count) =>
    if test x then scaleWhile test power places fuel (x.mul power, count + places) else (x, count)

/-- Scales a positive number to at least `10 ^ 17` and less than `10 ^ 19`. -/
def toDigits (x : Extended) : Extended × Int :=
  let start := (x, (0 : Int))
  if (ofNat 10000000000000000000).le x then
    let state := scaleWhile (le ⟨0x9e9f11c4014dda7e, 332⟩) downwards.hundred 100 16 start
    let state := scaleWhile (le ⟨0xa18f07d736b90be5, 33⟩) downwards.ten 10 16 state
    scaleWhile (le (ofNat 10000000000000000000)) downwards.one 1 16 state
  else
    let state := scaleWhile (!le ⟨0xdab99e59958885c5, -386⟩ ·) upwards.hundred (-100) 16 start
    let state := scaleWhile (!le (ofNat 10000000) ·) upwards.ten (-10) 16 state
    scaleWhile (!le (ofNat 100000000000000000) ·) upwards.one (-1) 16 state

end Extended

namespace Literal

/-- Leaves out the digits behind the first 19 or 20, which fit into 64 bits. -/
def firstDigits (literal : Literal) : Nat × Int :=
  let surplus := (Nat.toDigits 10 literal.digits).length - 19
  let first := literal.digits / Nat.pow 10 surplus
  if 1844674407370955160 ≤ first then (first, literal.scale + surplus)
  else (literal.digits / Nat.pow 10 (surplus - 1), literal.scale + (surplus - 1 : Nat))

/-- Makes the scale smaller by zeros that go to the digits, or away from them. -/
def settle : Nat → Nat × Int → Nat × Int
  | 0, state => state
  | fuel + 1, (digits, scale) =>
    if 0 < scale ∧ digits < 1844674407370955161 then settle fuel (digits * 10, scale - 1)
    else if scale < 0 ∧ digits % 10 = 0 then settle fuel (digits / 10, scale + 1)
    else (digits, scale)

def toStored (literal : Literal) : Double :=
  if literal.digits = 0 then Double.signedZero literal.negative
  else
    let place : Int := (Nat.toDigits 10 literal.digits).length + literal.scale
    if 310 < place then .infinite literal.negative
    else if place < -330 then Double.signedZero literal.negative
    else
      let (digits, scale) := settle 20 literal.firstDigits
      if scale = 0 then Double.ofRatio literal.negative digits 1
      else
        let powers := if 0 < scale then Extended.upwards else Extended.downwards
        ((Extended.ofNat digits).scale powers scale.natAbs).toDouble literal.negative

end Literal

namespace Double

def extended (exponent fraction : Nat) : Extended :=
  match exponent with
  | 0 => ⟨fraction, -unitExponent⟩
  | above + 1 => ⟨fractionCount + fraction, above - unitExponent⟩

def storeDigits (exponent fraction : Nat) : Decimal :=
  let (x, places) := (extended exponent fraction).toDigits
  let d := (Decimal.rounded x.floor 1 15).trimmed 15
  { d with leading := d.leading + places }

def storeText (x : Double) : String := String.ofList (x.writeWith storeLayout storeDigits)

/-- What the store makes of a number in a document, which it reads in its own way. -/
def inDocument (x : Double) : Double :=
  match Literal.scan x.documentChars with
  | some (literal, _) => literal.toStored
  | none => x

end Double

end CallSearch
