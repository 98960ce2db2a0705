namespace CallSearch

abbrev fractionCount : Nat := 4503599627370496

/-- A 64-bit floating point number. There is one value that is not a number. -/
inductive Double where
  | nan
  | infinite (negative : Bool)
  | finite (negative : Bool) (exponent : Fin 2047) (fraction : Fin fractionCount)
deriving DecidableEq, Inhabited

namespace Double

def unitExponent : Nat := 1074

def unitsPerOne : Nat := Nat.pow 2 unitExponent

def largest : Nat := 9007199254740991 * Nat.pow 2 971

def signBit : Nat := 9223372036854775808

def unitsOf (exponent fraction : Nat) : Nat :=
  match exponent with
  | 0 => fraction
  | above + 1 => (fractionCount + fraction) * Nat.pow 2 above

def ofBits (bits : UInt64) : Double :=
  let n := bits.toNat
  let negative := signBit ≤ n
  let exponent := n / fractionCount % 2048
  let fraction := n % fractionCount
  if h : exponent < 2047 then .finite negative ⟨exponent, h⟩ (Fin.ofNat _ fraction)
  else if fraction = 0 then .infinite negative
  else .nan

def toBits : Double → UInt64
  | .nan => 0x7ff8000000000000
  | .infinite negative => if negative then 0xfff0000000000000 else 0x7ff0000000000000
  | .finite negative exponent fraction =>
    UInt64.ofNat ((if negative then signBit else 0) + exponent.val * fractionCount + fraction.val)

def isNan : Double → Bool
  | .nan => true
  | _ => false

def signedZero (negative : Bool) : Double := .finite negative 0 0

def zero : Double := signedZero false

def roundDiv (numerator denominator : Nat) : Nat :=
  let quotient := numerator / denominator
  let rest := numerator % denominator
  if 2 * rest < denominator then quotient
  else if denominator < 2 * rest then quotient + 1
  else quotient + quotient % 2

/-- The value of `significand * 2 ^ shift` units, where the significand is at most `2 ^ 53`, and at
least `2 ^ 52` unless the shift is zero. -/
def ofSignificand (negative : Bool) (significand shift : Nat) : Double :=
  if significand < fractionCount then .finite negative 0 (Fin.ofNat _ significand)
  else
    let (exponent, fraction) :=
      if significand = 2 * fractionCount then (shift + 2, 0)
      else (shift + 1, significand - fractionCount)
    if h : exponent < 2047 then .finite negative ⟨exponent, h⟩ (Fin.ofNat _ fraction)
    else .infinite negative

/-- The value nearest to `numerator / denominator` units. -/
def ofUnitRatio (negative : Bool) (numerator denominator : Nat) : Double :=
  let shift := (numerator / denominator).log2 - 52
  ofSignificand negative (roundDiv numerator (denominator * Nat.pow 2 shift)) shift

def ofRatio (negative : Bool) (numerator denominator : Nat) : Double :=
  ofUnitRatio negative (numerator * unitsPerOne) denominator

def ofInt (n : Int) : Double := ofRatio (n < 0) n.natAbs 1

def notInfinite? : Double → Option Double
  | .infinite _ => none
  | x => some x

def ofInt? (n : Int) : Option Double := (ofInt n).notInfinite?

def units? : Double → Option Int
  | .finite negative exponent fraction =>
    let magnitude : Int := unitsOf exponent.val fraction.val
    some (if negative then -magnitude else magnitude)
  | _ => none

def isNegative : Double → Bool
  | .nan => false
  | .infinite negative => negative
  | .finite negative _ _ => negative

def isZero : Double → Bool
  | .finite _ exponent fraction => exponent.val = 0 && fraction.val = 0
  | _ => false

def isFinite : Double → Bool
  | .finite _ _ _ => true
  | _ => false

def toInt? (x : Double) : Option Int :=
  x.units?.bind fun u => if u % unitsPerOne = 0 then some (u / unitsPerOne) else none

def ceil? (x : Double) : Option Int :=
  x.units?.map fun u => -((-u) / unitsPerOne)

def floor? (x : Double) : Option Int :=
  x.units?.map fun u => u / unitsPerOne

def round? (x : Double) : Option Int :=
  x.units?.map fun u =>
    let magnitude : Int := (2 * u.natAbs + unitsPerOne) / (2 * unitsPerOne)
    if u < 0 then -magnitude else magnitude

def fraction? (x : Double) : Option Double :=
  x.units?.map fun u => ofUnitRatio (u < 0) (u.natAbs % unitsPerOne) 1

def add : Double → Double → Double
  | .nan, _ => .nan
  | _, .nan => .nan
  | .infinite a, .infinite b => if a = b then .infinite a else .nan
  | .infinite a, _ => .infinite a
  | _, .infinite b => .infinite b
  | x@(.finite a _ _), y@(.finite b _ _) =>
    let sum := x.units?.getD 0 + y.units?.getD 0
    if sum = 0 then signedZero (a && b)
    else ofUnitRatio (sum < 0) sum.natAbs 1

def neg : Double → Double
  | .nan => .nan
  | .infinite negative => .infinite (!negative)
  | .finite negative exponent fraction => .finite (!negative) exponent fraction

def mul (x y : Double) : Double :=
  let negative := x.isNegative != y.isNegative
  match x, y with
  | .nan, _ => .nan
  | _, .nan => .nan
  | .infinite _, _ => if y.isZero then .nan else .infinite negative
  | _, .infinite _ => if x.isZero then .nan else .infinite negative
  | .finite _ a b, .finite _ c d =>
    ofUnitRatio negative (unitsOf a.val b.val * unitsOf c.val d.val) unitsPerOne

def divNat (x : Double) (n : Nat) : Double :=
  match x with
  | .finite negative a b => ofUnitRatio negative (unitsOf a.val b.val) n
  | _ => x

end Double

end CallSearch
