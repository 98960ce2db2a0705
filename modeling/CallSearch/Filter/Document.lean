import CallSearch.Document.Scalar
import CallSearch.Filter.Group

namespace CallSearch

namespace Json

theorem sizeOf_lookup_lt (members : List (String × Json)) (name : String) (value : Json)
    (h : members.lookup name = some value) : sizeOf value < sizeOf members := by
  induction members with
  | nil => simp at h
  | cons head rest ih =>
    obtain ⟨key, first⟩ := head
    rw [List.lookup_cons] at h
    split at h
    · cases h
      simp
      omega
    · have := ih h
      simp
      omega

end Json

namespace Condition

def read (document : Json) : Reading Condition :=
  (fun column operation value subkey => ⟨column, operation, value, subkey⟩)
    <$> document.required ["column"] Json.readText
    <*> document.required ["operation"] Json.readText
    <*> document.optional ["value"] "" Json.readText
    <*> document.optional ["jsonField", "json_field"] none (Json.readNullable Json.readText)

end Condition

namespace Rule

def read (document : Json) : Fresh (Reading Rule) := do
  match document with
  | .obj _ =>
    let id ← match document.member? "id" with
      | some id => pure ((Json.readText id).under "id")
      | none => Reading.value <$> freshId
    return (fun id condition => { condition with id := id }) <$> id <*> Condition.read document
  | _ => return .problem .notObject

def toJson (rule : Rule) : Json :=
  .obj [("id", .str rule.id), ("column", .str rule.column), ("operation", .str rule.operation),
    ("value", .str rule.value), ("jsonField", .ofText? rule.subkey)]

def readAll : Json → Fresh (Reading (List Rule))
  | .arr items => do return .sequence (← items.mapM read)
  | _ => return .problem .notList

end Rule

namespace Group

def read (document : Json) : Fresh (Reading Group) := do
  match document with
  | .obj members =>
    let id ← match members.lookup "id" with
      | some id => pure ((Json.readText id).under "id")
      | none => Reading.value <$> freshId
    let logic := document.optional ["logic"] .and (Json.readChoice Logic.ofName?)
    let rules ← match members.lookup "filters" with
      | some rules => (·.under "filters") <$> Rule.readAll rules
      | none => pure (.value [])
    let groups ← match _h : members.lookup "groups" with
      | some (.arr items) => do
        let groups ← items.attach.mapM fun ⟨item, _⟩ => read item
        pure ((Reading.sequence groups).under "groups")
      | some _ => pure ((Reading.problem .notList).under "groups")
      | none => pure (.value [])
    return Group.mk <$> id <*> logic <*> rules <*> groups
  | _ => return .problem .notObject
termination_by sizeOf document
decreasing_by
  have hmember := Json.sizeOf_lookup_lt _ _ _ _h
  have hitem := List.sizeOf_lt_of_mem ‹_›
  simp at *
  omega

mutual

def toJson : Group → Json
  | ⟨id, logic, rules, groups⟩ =>
    .obj [("id", .str id), ("logic", .str logic.name), ("filters", .arr (rules.map Rule.toJson)),
      ("groups", .arr (toJsonAll groups))]

def toJsonAll : List Group → List Json
  | [] => []
  | group :: rest => group.toJson :: toJsonAll rest

end

def readAll : Json → Fresh (Reading (List Group))
  | .arr items => do return .sequence (← items.mapM read)
  | _ => return .problem .notList

end Group

end CallSearch
