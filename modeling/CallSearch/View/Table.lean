import CallSearch.Json.Same
import CallSearch.View.SavedView

namespace CallSearch

structure ViewRecord where
  id : String
  agent : String
  name : String
  filters : Json
  columns : Json
  createdAt : Timestamp
  updatedAt : Timestamp
deriving Inhabited

namespace Json

mutual

def finite : Json → Json
  | .real x => if x.isFinite then .real x else .null
  | .arr items => .arr (finiteItems items)
  | .obj members => .obj (finiteMembers members)
  | value => value

def finiteItems : List Json → List Json
  | [] => []
  | item :: rest => item.finite :: finiteItems rest

def finiteMembers : List (String × Json) → List (String × Json)
  | [] => []
  | (name, value) :: rest => (name, value.finite) :: finiteMembers rest

end

end Json

namespace ViewRecord

def write (record : ViewRecord) (view : SavedView) (now : Timestamp) : ViewRecord :=
  { record with
    name := view.name
    filters := .arr (view.filters.map Group.toJson)
    columns := view.columns.toJson.finite
    updatedAt := now }

/-- What is stored when a record changes into another one. A document of the same value as before is
left as it was. -/
def storedAfter (old changed : ViewRecord) : ViewRecord :=
  { changed with
    filters := if changed.filters.same old.filters then old.filters else changed.filters
    columns := if changed.columns.same old.columns then old.columns else changed.columns }

def create (id : String) (view : SavedView) (now : Timestamp) : ViewRecord :=
  ({ (default : ViewRecord) with id := id, agent := view.agent, createdAt := now }).write view now

def toView (record : ViewRecord) : Fresh (Reading SavedView) := do
  let filters ← Group.readAll record.filters
  return (fun filters columns =>
      { id := some record.id, agent := record.agent, name := record.name, filters, columns,
        createdAt := some ⟨record.createdAt, none⟩, updatedAt := some ⟨record.updatedAt, none⟩ })
    <$> filters.under "filters"
    <*> (VisibleColumns.read record.columns).under "visible_columns"

def groupCount (record : ViewRecord) : Nat :=
  match record.filters with
  | .arr groups => groups.length
  | _ => 0

def listedBefore (a b : ViewRecord) : Bool :=
  b.updatedAt.key < a.updatedAt.key
    || (a.updatedAt.key == b.updatedAt.key && b.createdAt.key ≤ a.createdAt.key)

end ViewRecord

/-- The table of saved views in the order in which they were created; there is none once it is
lost. -/
abbrev ViewTable := Option (List ViewRecord)

inductive ViewError where
  | noTable
deriving DecidableEq

namespace ViewTable

def records (table : ViewTable) : Except ViewError (List ViewRecord) :=
  table.elim (.error .noTable) .ok

def find (table : ViewTable) (id : String) : Except ViewError (Option ViewRecord) :=
  table.records.map (·.find? (·.id == id))

def list (table : ViewTable) (agent : String) : Except ViewError (List ViewRecord) :=
  table.records.map fun records =>
    (records.filter (·.agent == agent)).reverse.mergeSort ViewRecord.listedBefore

/-- Stores a view. A view without an id is created under a fresh one. A view with an id replaces the
one of the same id and agent; without such a one nothing is stored. -/
def save (table : ViewTable) (view : SavedView) (now : Timestamp) :
    Fresh (Except ViewError (Option ViewRecord × ViewTable)) := do
  match view.id with
  | none =>
    let record := ViewRecord.create (← freshId) view now
    return table.records.map fun records => (some record, some (records ++ [record]))
  | some id =>
    return table.records.map fun records =>
      match records.find? fun r => r.id == id && r.agent == view.agent with
      | none => (none, some records)
      | some record =>
        let changed := record.write view now
        let stored := record.storedAfter changed
        (some changed, some (records.map fun r => if r.id == id then stored else r))

def delete (table : ViewTable) (id : String) : Except ViewError (Bool × ViewTable) :=
  table.records.map fun records =>
    (records.any (·.id == id), some (records.filter (·.id != id)))

end ViewTable

end CallSearch
