import CallSearch.Double.Basic

namespace CallSearch

inductive NumberError where
  | tooLarge
  | notANumber
  | infinite
deriving DecidableEq

def NumberError.message : NumberError → String
  | .tooLarge => "int too large to convert to float"
  | .notANumber => "cannot convert float NaN to integer"
  | .infinite => "cannot convert float infinity to integer"

/-- A place on the number line, in units of `2 ^ (-1074)`, or one of its two ends. -/
inductive Place where
  | bottom
  | inside (units : Int)
  | top
deriving DecidableEq

namespace Place

def before : Place → Place → Bool
  | .bottom, .bottom => false
  | .bottom, _ => true
  | .inside a, .inside b => a < b
  | .inside _, .top => true
  | _, _ => false

end Place

def Double.place? : Double → Option Place
  | .nan => none
  | .infinite negative => some (if negative then .bottom else .top)
  | .finite negative exponent fraction =>
    let magnitude : Int := Double.unitsOf exponent.val fraction.val
    some (.inside (if negative then -magnitude else magnitude))

inductive Number where
  | int (n : Int)
  | real (x : Double)
deriving DecidableEq, Inhabited

namespace Number

def place? : Number → Option Place
  | .int n => some (.inside (n * Double.unitsPerOne))
  | .real x => x.place?

def lt (a b : Number) : Bool :=
  match a.place?, b.place? with
  | some p, some q => p.before q
  | _, _ => false

def same (a b : Number) : Bool :=
  match a.place?, b.place? with
  | some p, some q => p == q
  | _, _ => false

def le (a b : Number) : Bool := a.lt b || a.same b

def isNan : Number → Bool
  | .int _ => false
  | .real x => x.isNan

def toDouble : Number → Except NumberError Double
  | .int n => (Double.ofInt? n).elim (.error .tooLarge) .ok
  | .real x => .ok x

def add : Number → Number → Number
  | .int a, .int b => .int (a + b)
  | .int a, .real y => .real ((Double.ofInt a).add y)
  | .real x, .int b => .real (x.add (Double.ofInt b))
  | .real x, .real y => .real (x.add y)

def neg : Number → Number
  | .int a => .int (-a)
  | .real x => .real x.neg

end Number

end CallSearch
