import CallSearch.Json.Basic

namespace CallSearch

inductive Problem where
  | missing
  | notText
  | notList
  | notObject
  | notRecord
  | notChoice
  | notBool
  | unreadableBool
  | notInt
  | unreadableInt
  | fractionalInt
  | oversizedInt
  | infinite
  | notReal
  | unreadableReal
  | notTime
  | unreadableTime
  | timeOutOfRange
  | tooSmall
  | tooLarge
  | tooShort
  | tooLong
deriving DecidableEq

def Problem.name : Problem → String
  | .missing => "missing"
  | .notText => "string_type"
  | .notList => "list_type"
  | .notObject => "model_type"
  | .notRecord => "model_attributes_type"
  | .notChoice => "literal_error"
  | .notBool => "bool_type"
  | .unreadableBool => "bool_parsing"
  | .notInt => "int_type"
  | .unreadableInt => "int_parsing"
  | .fractionalInt => "int_from_float"
  | .oversizedInt => "int_parsing_size"
  | .infinite => "finite_number"
  | .notReal => "float_type"
  | .unreadableReal => "float_parsing"
  | .notTime => "datetime_type"
  | .unreadableTime => "datetime_from_date_parsing"
  | .timeOutOfRange => "datetime_parsing"
  | .tooSmall => "greater_than_equal"
  | .tooLarge => "less_than_equal"
  | .tooShort => "string_too_short"
  | .tooLong => "string_too_long"

structure Finding where
  path : List String
  problem : Problem
deriving DecidableEq

inductive Reading (α : Type) where
  | value (a : α)
  | refused (findings : List Finding)

namespace Reading

def problem {α : Type} (problem : Problem) : Reading α := .refused [⟨[], problem⟩]

instance : Applicative Reading where
  pure := .value
  seq f a :=
    match f, a () with
    | .value f, .value a => .value (f a)
    | .value _, .refused findings => .refused findings
    | .refused findings, .value _ => .refused findings
    | .refused first, .refused second => .refused (first ++ second)

def andThen {α β : Type} (a : Reading α) (f : α → Reading β) : Reading β :=
  match a with
  | .value a => f a
  | .refused findings => .refused findings

def under {α : Type} (name : String) : Reading α → Reading α
  | .value a => .value a
  | .refused findings => .refused (findings.map fun f => { f with path := name :: f.path })

def sequenceFrom {α : Type} : Nat → List (Reading α) → Reading (List α)
  | _, [] => pure []
  | i, first :: rest => (· :: ·) <$> first.under (toString i) <*> sequenceFrom (i + 1) rest

def sequence {α : Type} (items : List (Reading α)) : Reading (List α) := sequenceFrom 0 items

end Reading

namespace Json

def firstMember? (document : Json) : List String → Option (String × Json)
  | [] => none
  | name :: names =>
    match document.member? name with
    | some value => some (name, value)
    | none => document.firstMember? names

def required {α : Type} (document : Json) (names : List String) (read : Json → Reading α) :
    Reading α :=
  match document.firstMember? names with
  | some (name, value) => (read value).under name
  | none => .refused [⟨names.take 1, .missing⟩]

def optional {α : Type} (document : Json) (names : List String) (absent : α)
    (read : Json → Reading α) : Reading α :=
  match document.firstMember? names with
  | some (name, value) => (read value).under name
  | none => .value absent

def readNullable {α : Type} (read : Json → Reading α) : Json → Reading (Option α)
  | .null => .value none
  | value => some <$> read value

def readText : Json → Reading String
  | .str s => .value s
  | _ => .problem .notText

def readList {α : Type} (read : Json → Reading α) : Json → Reading (List α)
  | .arr items => .sequence (items.map read)
  | _ => .problem .notList

def readChoice {α : Type} (choose : String → Option α) : Json → Reading α
  | .str s => (choose s).elim (.problem .notChoice) .value
  | _ => .problem .notChoice

end Json

end CallSearch
