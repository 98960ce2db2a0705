import CallSearch.Document.Scalar
import CallSearch.Predicate.Basic
import CallSearch.Predicate.Sort

namespace CallSearch

namespace Expression

def read (document : Json) : Reading Expression :=
  match document with
  | .obj _ =>
    Expression.mk
      <$> document.required ["column"] Json.readText
      <*> document.optional ["json_field"] none (Json.readNullable Json.readText)
      <*> document.optional ["numeric"] false Json.readBool
  | _ => .problem .notObject

def toJson (e : Expression) : Json :=
  .obj [("column", .str e.column), ("json_field", .ofText? e.subkey), ("numeric", .bool e.numeric)]

end Expression

namespace Value

def read : Json → Reading Value
  | .null => .value .null
  | .bool b => .value (.bool b)
  | .int n => .value (.number (.int n))
  | .real x => .value (.number (.real x))
  | .str s => .value (.text s)
  | _ => .refused [⟨["bool"], .notBool⟩, ⟨["int"], .notInt⟩, ⟨["float"], .notReal⟩,
      ⟨["str"], .notText⟩]

def toJson : Value → Json
  | .null => .null
  | .bool b => .bool b
  | .number n => .ofNumber n
  | .text s => .str s

end Value

namespace Predicate

def read (document : Json) : Reading Predicate :=
  match document with
  | .obj _ =>
    Predicate.mk
      <$> document.required ["column"] Json.readText
      <*> document.required ["operator"] (Json.readChoice Operator.ofName?)
      <*> document.optional ["value"] .null Value.read
  | _ => .problem .notObject

def toJson (p : Predicate) : Json :=
  .obj [("column", .str p.column), ("operator", .str p.operator.name), ("value", p.value.toJson)]

end Predicate

namespace SortOrder

def read (document : Json) : Reading SortOrder :=
  match document with
  | .obj _ =>
    SortOrder.mk
      <$> document.optional ["column"] "call_started_at" Json.readText
      <*> document.optional ["ascending"] false Json.readBool
  | _ => .problem .notObject

def toJson (order : SortOrder) : Json :=
  .obj [("column", .str order.column), ("ascending", .bool order.ascending)]

end SortOrder

end CallSearch
