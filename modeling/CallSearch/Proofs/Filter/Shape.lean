import CallSearch.Filter.Group
import CallSearch.Proofs.Identity

namespace CallSearch

/-- What a group says: its logic and its conditions, at every depth. -/
structure Shape where
  logic : Logic
  conditions : List Condition
  groups : List Shape

namespace Shape

mutual

def flatten : Shape → List Condition
  | ⟨_, conditions, groups⟩ => conditions ++ flattenAll groups

def flattenAll : List Shape → List Condition
  | [] => []
  | shape :: rest => shape.flatten ++ flattenAll rest

end

end Shape

namespace Group

mutual

def shape : Group → Shape
  | ⟨_, logic, rules, groups⟩ => ⟨logic, rules.map (·.toCondition), shapes groups⟩

def shapes : List Group → List Shape
  | [] => []
  | group :: rest => group.shape :: shapes rest

end

mutual

/-- The ids of a group and of all rules and groups in it, at every depth. -/
def ids : Group → List String
  | ⟨id, _, rules, groups⟩ => id :: (rules.map (·.id) ++ idsOfAll groups)

def idsOfAll : List Group → List String
  | [] => []
  | group :: rest => group.ids ++ idsOfAll rest

end

theorem shapes_eq (groups : List Group) : shapes groups = groups.map shape := by
  induction groups with
  | nil => rfl
  | cons group rest ih => rw [shapes, ih, List.map_cons]

mutual

theorem flatten_shape : ∀ group : Group,
    group.shape.flatten = group.flatten.map (·.toCondition)
  | ⟨_, _, rules, groups⟩ => by
    rw [shape, Shape.flatten, flatten, List.map_append, flattenAll_shapes groups]

theorem flattenAll_shapes : ∀ groups : List Group,
    Shape.flattenAll (shapes groups) = (flattenAll groups).map (·.toCondition)
  | [] => rfl
  | group :: rest => by
    rw [shapes, Shape.flattenAll, flattenAll, List.map_append, flatten_shape group,
      flattenAll_shapes rest]

end

section Renewed

theorem toCondition_toRule (c : Condition) (supply : IdSupply) :
    (c.toRule.run supply).1.toCondition = c := rfl

theorem gives_toRule (c : Condition) (supply : IdSupply) :
    IdSupply.Gives supply [(c.toRule.run supply).1.id] (c.toRule.run supply).2 :=
  .cons (.nil _)

variable (supply : IdSupply)

theorem run_renewed (id : String) (logic : Logic) (rules : List Rule) (groups : List Group) :
    (renewed ⟨id, logic, rules, groups⟩).run supply =
      let own := StateT.run (rules.mapM fun rule ↦ rule.toCondition.toRule) ⟨supply.next + 1⟩
      let inner := (renewedAll groups).run own.2
      (⟨IdSupply.idOf supply.next, logic, own.1, inner.1⟩, inner.2) := by
  rw [renewed]
  rfl

theorem run_renewedAll (group : Group) (rest : List Group) :
    (renewedAll (group :: rest)).run supply =
      let first := group.renewed.run supply
      let others := (renewedAll rest).run first.2
      (first.1 :: others.1, others.2) := by
  rw [renewedAll]
  rfl

end Renewed

mutual

theorem shape_renewed : ∀ (group : Group) (supply : IdSupply),
    (group.renewed.run supply).1.shape = group.shape
  | ⟨id, logic, rules, groups⟩, supply => by
    have own := map_mapM (fun rule supply ↦ toCondition_toRule rule.toCondition supply) rules
      ⟨supply.next + 1⟩
    have inner := shapes_renewedAll groups
    rw [run_renewed, shape, shape, own, inner]

theorem shapes_renewedAll : ∀ (groups : List Group) (supply : IdSupply),
    shapes ((renewedAll groups).run supply).1 = shapes groups
  | [], _ => rfl
  | group :: rest, supply => by
    rw [run_renewedAll, shapes, shapes, shape_renewed group, shapes_renewedAll rest]

end

mutual

theorem gives_renewed : ∀ (group : Group) (supply : IdSupply),
    IdSupply.Gives supply (group.renewed.run supply).1.ids (group.renewed.run supply).2
  | ⟨id, logic, rules, groups⟩, supply => by
    have own := gives_mapM (fun rule supply ↦ gives_toRule rule.toCondition supply) rules
      ⟨supply.next + 1⟩
    rw [run_renewed, ids]
    exact .cons (own.append (gives_renewedAll groups _))

theorem gives_renewedAll : ∀ (groups : List Group) (supply : IdSupply),
    IdSupply.Gives supply (idsOfAll ((renewedAll groups).run supply).1)
      ((renewedAll groups).run supply).2
  | [], supply => .nil supply
  | group :: rest, supply => by
    rw [run_renewedAll, idsOfAll]
    exact (gives_renewed group supply).append (gives_renewedAll rest _)

end

end Group

namespace Forest

def ids (forest : Forest) : List String := Group.idsOfAll forest

end Forest

end CallSearch
