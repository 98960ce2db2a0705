import CallSearch.Filter.Group

namespace CallSearch

inductive EditError where
  | outOfRange
  | invalidLogic (shown : String)
deriving DecidableEq

def EditError.message : EditError → String
  | .outOfRange => "list index out of range"
  | .invalidLogic shown => "Invalid group logic: " ++ shown

/-- Where a group or a rule is: at a position, counted from the end if it is negative, or under an
id. -/
inductive Target where
  | position (i : Int)
  | id (id : String)
deriving DecidableEq

inductive LogicRequest where
  | logic (logic : Logic)
  | unknown (shown : String)
deriving DecidableEq

inductive Edit where
  | clear
  | addRule (group : Int) (rule : Rule)
  | removeRule (group : Int) (rule : Target)
  | setLogic (group : Int) (logic : LogicRequest)
  | update (group : Group)
  | append (logic : Logic)
  | remove (group : Target)
  | duplicate (group : Target)

namespace Edit

def item {α : Type} (items : List α) (i : Int) : Except EditError α :=
  let index := if i < 0 then i + items.length else i
  if index < 0 then .error .outOfRange
  else
    match items[index.toNat]? with
    | some a => .ok a
    | none => .error .outOfRange

def idOf {α : Type} (items : List α) (id : α → String) : Target → Except EditError String
  | .position i => (item items i).map id
  | .id id => .ok id

def perform (forest : Forest) (edit : Edit) : Fresh (Except EditError Forest) :=
  match edit with
  | .clear => .ok <$> Forest.cleared
  | .addRule i rule =>
    pure ((item forest i).map fun group => forest.update (group.addRule rule))
  | .removeRule i rule => pure do
    let group ← item forest i
    let id ← idOf group.rules (·.id) rule
    return forest.update (group.removeRule id)
  | .setLogic i logic => pure do
    let group ← item forest i
    match logic with
    | .logic logic => return forest.update (group.setLogic logic)
    | .unknown shown => throw (.invalidLogic shown)
  | .update group => pure (.ok (forest.update group))
  | .append logic => .ok <$> forest.append logic
  | .remove target =>
    pure ((idOf forest (·.id) target).map fun id => forest.remove id)
  | .duplicate target =>
    match idOf forest (·.id) target with
    | .ok id => .ok <$> forest.duplicate id
    | .error error => pure (.error error)

/-- The list of groups after an edit; a rejected edit changes nothing. -/
def apply (forest : Forest) (edit : Edit) : Fresh Forest := do
  match ← edit.perform forest with
  | .ok forest => return forest
  | .error _ => return forest

end Edit

end CallSearch
