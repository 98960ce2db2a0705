import CallSearch.Double.Decimal
import CallSearch.Json.Basic
import CallSearch.Text.Quoted

namespace CallSearch.Json

structure Style where
  comma : List Char
  colon : List Char
  sorted : Bool
  real : Double → List Char

def escapeUnit (unit : Nat) : List Char := '\\' :: 'u' :: Text.hexDigits 4 unit

def escapeChar (c : Char) : List Char :=
  if c == '\x22' then ['\\', '\x22']
  else if c == '\\' then ['\\', '\\']
  else if c == '\n' then ['\\', 'n']
  else if c == '\r' then ['\\', 'r']
  else if c == '\t' then ['\\', 't']
  else if c == '\x08' then ['\\', 'b']
  else if c == '\x0c' then ['\\', 'f']
  else if 32 ≤ c.toNat && c.toNat < 127 then [c]
  else if c.toNat < 0x10000 then escapeUnit c.toNat
  else
    escapeUnit (0xd800 + (c.toNat - 0x10000) / 0x400)
      ++ escapeUnit (0xdc00 + (c.toNat - 0x10000) % 0x400)

def stringChars (s : String) : List Char :=
  '\x22' :: (s.toList.flatMap escapeChar ++ ['\x22'])

def intChars (n : Int) : List Char :=
  if n < 0 then '-' :: Nat.toDigits 10 n.natAbs else Nat.toDigits 10 n.natAbs

def joinChars (separator : List Char) : List (List Char) → List Char
  | [] => []
  | [piece] => piece
  | piece :: rest => piece ++ separator ++ joinChars separator rest

def sortMembers {α : Type} (members : List (String × α)) : List (String × α) :=
  members.mergeSort fun a b => decide (a.1 ≤ b.1)

mutual

def chars (style : Style) : Json → List Char
  | .null => ['n', 'u', 'l', 'l']
  | .bool true => ['t', 'r', 'u', 'e']
  | .bool false => ['f', 'a', 'l', 's', 'e']
  | .int n => intChars n
  | .real x => style.real x
  | .str s => stringChars s
  | .arr items => '[' :: (joinChars style.comma (itemChars style items) ++ [']'])
  | .obj members =>
    let written := memberChars style members
    let ordered := if style.sorted then sortMembers written else written
    '\x7b' :: (joinChars style.comma (ordered.map fun (name, value) =>
      stringChars name ++ style.colon ++ value) ++ ['\x7d'])

def itemChars (style : Style) : List Json → List (List Char)
  | [] => []
  | item :: rest => chars style item :: itemChars style rest

def memberChars (style : Style) : List (String × Json) → List (String × List Char)
  | [] => []
  | (name, value) :: rest => (name, chars style value) :: memberChars style rest

end

def spacedStyle : Style := ⟨[',', ' '], [':', ' '], false, Double.documentChars⟩

def compactStyle : Style := ⟨[','], [':'], false, Double.documentChars⟩

def canonicalStyle : Style := ⟨[',', ' '], [':', ' '], true, Double.documentChars⟩

/-- The store writes what is not a number as null, and infinity as a number that is too large. -/
def storeStyle : Style :=
  { compactStyle with
    real := fun
      | .nan => ['n', 'u', 'l', 'l']
      | .infinite negative => (if negative then ['-'] else []) ++ ['9', 'e', '9', '9', '9']
      | x => x.documentChars }

/-- A text that is the same for two values exactly if they are the same up to the order of
members. -/
def canonicalKey (value : Json) : String := String.ofList (chars canonicalStyle value)

end CallSearch.Json
