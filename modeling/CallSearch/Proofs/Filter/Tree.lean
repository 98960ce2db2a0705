import Mathlib.Data.List.Perm.Basic
import CallSearch.Filter.Group

namespace CallSearch

namespace Group

mutual

def without (gone : List Rule) : Group → Group
  | ⟨id, logic, rules, groups⟩ =>
    ⟨id, logic, rules.filter fun rule ↦ !gone.contains rule, withoutAll gone groups⟩

def withoutAll (gone : List Rule) : List Group → List Group
  | [] => []
  | group :: rest => group.without gone :: withoutAll gone rest

end

theorem flattenAll_append (groups others : List Group) :
    flattenAll (groups ++ others) = flattenAll groups ++ flattenAll others := by
  induction groups with
  | nil => rfl
  | cons group rest ih => rw [List.cons_append, flattenAll, ih, flattenAll, List.append_assoc]

variable (gone : List Rule)

mutual

theorem flatten_without : ∀ group : Group,
    (group.without gone).flatten = group.flatten.filter fun rule ↦ !gone.contains rule
  | ⟨_, _, _, groups⟩ => by
    rw [without, flatten, flatten, flattenAll_withoutAll groups, List.filter_append]

theorem flattenAll_withoutAll : ∀ groups : List Group,
    flattenAll (withoutAll gone groups) =
      (flattenAll groups).filter fun rule ↦ !gone.contains rule
  | [] => rfl
  | group :: rest => by
    rw [withoutAll, flattenAll, flattenAll, flatten_without group, flattenAll_withoutAll rest,
      List.filter_append]

end

end Group

namespace Forest

/-- A forest without some rules, wherever they stand in it. -/
def without (gone : List Rule) (forest : Forest) : Forest := Group.withoutAll gone forest

theorem rules_without (gone : List Rule) (forest : Forest) :
    rules (without gone forest) = (rules forest).filter fun rule ↦ !gone.contains rule :=
  Group.flattenAll_withoutAll gone forest

/-- The second forest is the first one with a rule put in, at any place of any group. -/
inductive Inserts (rule : Rule) : Forest → Forest → Prop
  | here (id : String) (logic : Logic) (before after : List Rule) (groups rest : List Group) :
      Inserts rule (⟨id, logic, before ++ after, groups⟩ :: rest)
        (⟨id, logic, before ++ rule :: after, groups⟩ :: rest)
  | inside (id : String) (logic : Logic) (rules : List Rule) {groups changed : List Group}
      (rest : List Group) (inner : Inserts rule groups changed) :
      Inserts rule (⟨id, logic, rules, groups⟩ :: rest) (⟨id, logic, rules, changed⟩ :: rest)
  | later (group : Group) {rest changed : List Group} (inner : Inserts rule rest changed) :
      Inserts rule (group :: rest) (group :: changed)

/-- The second forest is the first one with its groups, and the rules and subgroups of each, in any
order. -/
inductive Reorders : Forest → Forest → Prop
  | nil : Reorders [] []
  | cons (id : String) (logic : Logic) {rules others : List Rule} {groups changed : List Group}
      {rest moved : List Group} (perm : rules.Perm others) (inner : Reorders groups changed)
      (later : Reorders rest moved) :
      Reorders (⟨id, logic, rules, groups⟩ :: rest) (⟨id, logic, others, changed⟩ :: moved)
  | swap (first second : Group) (rest : List Group) :
      Reorders (first :: second :: rest) (second :: first :: rest)
  | trans {forest between other : Forest} (first : Reorders forest between)
      (second : Reorders between other) : Reorders forest other

variable {forest changed : Forest}

theorem Inserts.rules {rule : Rule} (h : Inserts rule forest changed) :
    ∃ before after, Forest.rules forest = before ++ after ∧
      Forest.rules changed = before ++ rule :: after := by
  induction h with
  | here id logic before after groups rest =>
    refine ⟨before, after ++ Group.flattenAll groups ++ Group.flattenAll rest, ?_, ?_⟩ <;>
      simp [Forest.rules, Group.flattenAll, Group.flatten]
  | inside id logic rules rest inner ih =>
    obtain ⟨before, after, first, second⟩ := ih
    rw [Forest.rules] at first second
    refine ⟨rules ++ before, after ++ Group.flattenAll rest, ?_, ?_⟩ <;>
      simp [Forest.rules, Group.flattenAll, Group.flatten, first, second]
  | later group inner ih =>
    obtain ⟨before, after, first, second⟩ := ih
    rw [Forest.rules] at first second
    refine ⟨group.flatten ++ before, after, ?_, ?_⟩ <;>
      simp [Forest.rules, Group.flattenAll, first, second]

theorem Reorders.rules_perm (h : Reorders forest changed) :
    (Forest.rules forest).Perm (Forest.rules changed) := by
  induction h with
  | nil => exact .refl _
  | cons id logic perm inner later ihInner ihLater => exact (perm.append ihInner).append ihLater
  | swap first second rest =>
    simp only [Forest.rules, Group.flattenAll, ← List.append_assoc]
    exact List.perm_append_comm.append_right _
  | trans first second ih ih' => exact ih.trans ih'

end Forest

end CallSearch
