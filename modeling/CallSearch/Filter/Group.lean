import CallSearch.Filter.Rule

namespace CallSearch

inductive Logic where
  | and
  | or
deriving DecidableEq, Inhabited

namespace Logic

def name : Logic → String
  | .and => "AND"
  | .or => "OR"

def ofName? (name : String) : Option Logic := [and, or].find? (·.name == name)

end Logic

structure Group where
  id : String
  logic : Logic
  rules : List Rule
  groups : List Group
deriving Inhabited

namespace Group

def blank : Fresh Group := do return ⟨← freshId, .and, [], []⟩

mutual

/-- The rules of a tree, a group's own before those of its subgroups. -/
def flatten : Group → List Rule
  | ⟨_, _, rules, groups⟩ => rules ++ flattenAll groups

def flattenAll : List Group → List Rule
  | [] => []
  | group :: rest => group.flatten ++ flattenAll rest

end

mutual

def isEmpty : Group → Bool
  | ⟨_, _, rules, groups⟩ => rules.isEmpty && allEmpty groups

def allEmpty : List Group → Bool
  | [] => true
  | group :: rest => group.isEmpty && allEmpty rest

end

mutual

def renewed : Group → Fresh Group
  | ⟨_, logic, rules, groups⟩ => do
    let id ← freshId
    let rules ← rules.mapM fun rule => rule.toCondition.toRule
    return ⟨id, logic, rules, ← renewedAll groups⟩

def renewedAll : List Group → Fresh (List Group)
  | [] => pure []
  | group :: rest => do
    let first ← group.renewed
    return first :: (← renewedAll rest)

end

def addRule (group : Group) (rule : Rule) : Group := { group with rules := group.rules ++ [rule] }

def removeRule (group : Group) (id : String) : Group :=
  { group with rules := group.rules.filter (·.id != id) }

def setLogic (group : Group) (logic : Logic) : Group := { group with logic := logic }

end Group

abbrev Forest := List Group

namespace Forest

def cleared : Fresh Forest := do return [← Group.blank]

def update (forest : Forest) (group : Group) : Forest :=
  forest.map fun g => if g.id == group.id then group else g

def append (forest : Forest) (logic : Logic) : Fresh Forest := do
  let group ← Group.blank
  return forest ++ [group.setLogic logic]

def remove (forest : Forest) (id : String) : Forest :=
  if forest.length ≤ 1 then forest else forest.filter (·.id != id)

def duplicate (forest : Forest) (id : String) : Fresh Forest :=
  match forest.find? (·.id == id) with
  | none => pure forest
  | some group => do return forest ++ [← group.renewed]

def rules (forest : Forest) : List Rule := Group.flattenAll forest

def ruleCount (forest : Forest) : Nat := (rules forest).length

end Forest

end CallSearch
