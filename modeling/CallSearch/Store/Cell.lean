import CallSearch.Calendar.Timestamp
import CallSearch.Double.Extended
import CallSearch.Json.Printer
import CallSearch.Number

namespace CallSearch

inductive Cell where
  | null
  | number (n : Number)
  | text (s : String)
  | time (t : Timestamp)
deriving DecidableEq, Inhabited

def Number.fits : Number → Bool
  | .int n => -9223372036854775808 ≤ n && n < 9223372036854775808
  | .real _ => true

def Number.tooLargeForStore : String := "Python int too large to convert to SQLite INTEGER"

/-- A whole number if it fits into 64 bits, else a floating point number. -/
def Number.ofInt (n : Int) : Number :=
  if (Number.int n).fits then .int n else .real (Literal.toStored ⟨n < 0, n.natAbs, 0⟩)

def Number.storeText : Number → String
  | .int n => String.ofList (Json.intChars n)
  | .real x => x.storeText

namespace Cell

def ofDouble (x : Double) : Cell := if x.isNan then .null else .number (.real x)

def isNull : Cell → Bool
  | .null => true
  | _ => false

def asText : Cell → Option String
  | .null => none
  | .number n => some n.storeText
  | .text s => some s
  | .time t => some t.storeText

def leadingDouble (s : String) : Double :=
  match Literal.scan (s.toList.dropWhile Text.isPlainBlank) with
  | some (literal, _) => literal.toStored
  | none => .zero

def asNumber : Cell → Cell
  | .null => .null
  | .number (.int n) => .number (.real (Double.ofInt n))
  | .number (.real x) => .number (.real x)
  | .text s => ofDouble (leadingDouble s)
  | .time t => ofDouble (leadingDouble t.storeText)

/-- Whether one value comes before another; nothing comes before anything else here. -/
def before (a b : Cell) : Bool :=
  match a, b with
  | .null, _ => false
  | _, .null => false
  | .number m, .number n => m.lt n
  | .number _, _ => true
  | _, .number _ => false
  | .time s, .time t => s.key < t.key
  | .text s, .text t => s < t
  | .text s, .time t => s < t.storeText
  | .time s, .text t => s.storeText < t

def equal (a b : Cell) : Bool :=
  match a, b with
  | .number m, .number n => m.same n
  | .time s, .time t => s.key == t.key
  | .text s, .text t => s == t
  | .text s, .time t => s == t.storeText
  | .time s, .text t => s.storeText == t
  | _, _ => false

def inOrder (a b : Cell) : Bool :=
  match a, b with
  | .null, _ => true
  | _, .null => false
  | _, _ => !b.before a

end Cell

inductive Affinity where
  | text
  | numeric
deriving DecidableEq

def wholeTextNumber? (s : String) : Option Number :=
  let body := Text.stripChars Text.isPlainBlank s.toList
  match Literal.scan body with
  | some (literal, []) =>
    let digits := (Literal.takeSign body).2
    if digits.all Text.isAsciiDigit then
      let n : Int := literal.digits
      some (Number.ofInt (if literal.negative then -n else n))
    else some (.real literal.toStored)
  | _ => none

def Affinity.bring (affinity : Affinity) (cell : Cell) : Cell :=
  match affinity, cell with
  | .text, .number n => .text n.storeText
  | .numeric, .text s => (wholeTextNumber? s).elim (.text s) .number
  | _, cell => cell

end CallSearch
