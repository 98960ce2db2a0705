import Mathlib.Data.Set.Card
import CallSearch.Proofs.Filter.Tree

namespace CallSearch

namespace Forest

/-- Where a rule stands: at a place among the own rules of some group, or at a position in the
subgroups of one. -/
inductive Position where
  | own (group place : ℕ)
  | inside (group : ℕ) (position : Position)
deriving DecidableEq

namespace Position

def group : Position → ℕ
  | own group _ => group
  | inside group _ => group

def later : Position → Position
  | own group place => own (group + 1) place
  | inside group position => inside (group + 1) position

def inFirst : Position → Position
  | own _ place => own 0 place
  | inside _ position => inside 0 position

/-- The order in which rules are listed. -/
inductive Before : Position → Position → Prop
  | groups {first second : Position} (earlier : first.group < second.group) : Before first second
  | rules (group : ℕ) {place other : ℕ} (earlier : place < other) :
      Before (own group place) (own group other)
  | subgroups (group place : ℕ) (position : Position) :
      Before (own group place) (inside group position)
  | inside (group : ℕ) {first second : Position} (earlier : Before first second) :
      Before (.inside group first) (.inside group second)

theorem group_later (position : Position) : position.later.group = position.group + 1 := by
  cases position <;> rfl

theorem later_injective : Function.Injective later := by
  intro first second same
  cases first <;> cases second <;> simp_all [later]

theorem inFirst_later (position : Position) : position.later.inFirst = position.inFirst := by
  cases position <;> rfl

theorem first_or_later (position : Position) :
    position.group = 0 ∧ position.inFirst = position ∨
      ∃ earlier : Position, position = earlier.later := by
  rcases position with ⟨_ | number, place⟩ | ⟨_ | number, position⟩
  · exact .inl ⟨rfl, rfl⟩
  · exact .inr ⟨own number place, rfl⟩
  · exact .inl ⟨rfl, rfl⟩
  · exact .inr ⟨inside number position, rfl⟩

theorem Before.later {first second : Position} (h : Before first second) :
    Before first.later second.later := by
  cases h with
  | groups earlier =>
    apply Before.groups
    rw [group_later, group_later]
    omega
  | rules group earlier => exact .rules (group + 1) earlier
  | subgroups group place position => exact .subgroups (group + 1) place position
  | inside group earlier => exact .inside (group + 1) earlier

theorem Before.ne {first second : Position} (h : Before first second) : first ≠ second := by
  induction h with
  | groups earlier =>
    intro same
    rw [same] at earlier
    omega
  | rules group earlier =>
    intro same
    cases same
    omega
  | subgroups group place position =>
    intro same
    cases same
  | inside group earlier ih =>
    intro same
    cases same
    exact ih rfl

end Position

def ruleAt? : Forest → Position → Option Rule
  | forest, .own group place => forest[group]?.bind (·.rules[place]?)
  | forest, .inside group position => forest[group]?.bind fun g ↦ ruleAt? g.groups position

end Forest

namespace Group

open Forest

mutual

def positions : Group → List Position
  | ⟨_, _, rules, groups⟩ =>
    (List.range rules.length).map (.own 0) ++ (positionsOfAll groups).map (.inside 0)

def positionsOfAll : List Group → List Position
  | [] => []
  | group :: rest => group.positions ++ (positionsOfAll rest).map .later

end

theorem ruleAt?_later (group : Group) (rest : List Group) (position : Position) :
    ruleAt? (group :: rest) position.later = ruleAt? rest position := by
  cases position <;> rfl

mutual

/-- The rules of a group are those at its positions. -/
theorem map_ruleAt?_positions (rest : List Group) : ∀ group : Group,
    group.positions.map (ruleAt? (group :: rest)) = group.flatten.map some
  | ⟨id, logic, rules, groups⟩ => by
    have own : (List.range rules.length).map (fun place ↦ rules[place]?) = rules.map some := by
      apply List.ext_getElem
      · simp
      · intro place inRange inRules
        have : place < rules.length := by simpa using inRange
        simp [this]
    have inner := map_ruleAt?_positionsOfAll groups
    rw [positions, flatten, List.map_append, List.map_append, List.map_map, List.map_map, ← own,
      ← inner]
    rfl

theorem map_ruleAt?_positionsOfAll : ∀ groups : List Group,
    (positionsOfAll groups).map (ruleAt? groups) = (flattenAll groups).map some
  | [] => rfl
  | group :: rest => by
    have later : (positionsOfAll rest).map (ruleAt? (group :: rest) ∘ Position.later) =
        (flattenAll rest).map some := by
      rw [← map_ruleAt?_positionsOfAll rest]
      exact List.map_congr_left fun position _ ↦ ruleAt?_later group rest position
    rw [positionsOfAll, flattenAll, List.map_append, List.map_append, List.map_map, later,
      map_ruleAt?_positions rest group]

end

theorem group_of_mem_positions (group : Group) {position : Position}
    (inside : position ∈ group.positions) : position.group = 0 := by
  obtain ⟨id, logic, rules, groups⟩ := group
  rw [positions, List.mem_append, List.mem_map, List.mem_map] at inside
  rcases inside with ⟨place, -, rfl⟩ | ⟨inner, -, rfl⟩ <;> rfl

mutual

theorem pairwise_positions : ∀ group : Group, group.positions.Pairwise Position.Before
  | ⟨id, logic, rules, groups⟩ => by
    rw [positions, List.pairwise_append, List.pairwise_map, List.pairwise_map]
    refine ⟨?_, ?_, ?_⟩
    · exact List.pairwise_lt_range.imp fun earlier ↦ .rules 0 earlier
    · exact (pairwise_positionsOfAll groups).imp fun earlier ↦ .inside 0 earlier
    · intro first own second inner
      obtain ⟨place, -, rfl⟩ := List.mem_map.mp own
      obtain ⟨position, -, rfl⟩ := List.mem_map.mp inner
      exact .subgroups 0 place position

theorem pairwise_positionsOfAll : ∀ groups : List Group,
    (positionsOfAll groups).Pairwise Position.Before
  | [] => .nil
  | group :: rest => by
    rw [positionsOfAll, List.pairwise_append, List.pairwise_map]
    refine ⟨pairwise_positions group, ?_, ?_⟩
    · exact (pairwise_positionsOfAll rest).imp fun earlier ↦ earlier.later
    · intro first here second there
      obtain ⟨position, -, rfl⟩ := List.mem_map.mp there
      apply Position.Before.groups
      rw [group_of_mem_positions group here, Position.group_later]
      omega

end

theorem own_mem_positions_iff {group : Group} {place : ℕ} :
    .own 0 place ∈ group.positions ↔ place < group.rules.length := by
  obtain ⟨id, logic, rules, groups⟩ := group
  simp [positions]

theorem inside_mem_positions_iff {group : Group} {position : Position} :
    .inside 0 position ∈ group.positions ↔ position ∈ positionsOfAll group.groups := by
  obtain ⟨id, logic, rules, groups⟩ := group
  simp [positions]

theorem mem_positionsOfAll_iff {groups : List Group} {position : Position} :
    position ∈ positionsOfAll groups ↔
      ∃ group, groups[position.group]? = some group ∧ position.inFirst ∈ group.positions := by
  induction groups generalizing position with
  | nil => simp [positionsOfAll]
  | cons group rest ih =>
    rw [positionsOfAll, List.mem_append, List.mem_map]
    -- The positions of the first group have number 0, those of the rest have moved on from it.
    obtain ⟨number, same⟩ | ⟨earlier, rfl⟩ := position.first_or_later
    · have notLater : ¬∃ earlier ∈ positionsOfAll rest, earlier.later = position := by
        intro ⟨earlier, _, later⟩
        rw [← later, Position.group_later] at number
        omega
      simp [number, same, notLater]
    · have notFirst : earlier.later ∉ group.positions := by
        intro first
        have number := group_of_mem_positions group first
        rw [Position.group_later] at number
        omega
      simp [notFirst, Position.later_injective.eq_iff, Position.group_later, Position.inFirst_later,
        ih]

theorem mem_positionsOfAll_iff_ruleAt? {groups : List Group} {position : Position} :
    position ∈ positionsOfAll groups ↔ (ruleAt? groups position).isSome := by
  induction position generalizing groups with
  | own number place =>
    rw [mem_positionsOfAll_iff, ruleAt?, Position.group, Position.inFirst]
    cases groups[number]? <;> simp [own_mem_positions_iff]
  | inside number position ih =>
    rw [mem_positionsOfAll_iff, ruleAt?, Position.group, Position.inFirst]
    cases groups[number]? <;> simp [inside_mem_positions_iff, ih]

mutual

theorem isEmpty_iff : ∀ group : Group, group.isEmpty ↔ group.flatten = []
  | ⟨id, logic, rules, groups⟩ => by
    rw [isEmpty, flatten, Bool.and_eq_true, allEmpty_iff groups, List.isEmpty_iff,
      List.append_eq_nil_iff]

theorem allEmpty_iff : ∀ groups : List Group, allEmpty groups ↔ flattenAll groups = []
  | [] => by simp [allEmpty, flattenAll]
  | group :: rest => by
    rw [allEmpty, flattenAll, Bool.and_eq_true, isEmpty_iff group, allEmpty_iff rest,
      List.append_eq_nil_iff]

end

end Group

namespace Forest

/-- The positions of the rules of a forest, in the order in which the rules are listed. -/
def positions (forest : Forest) : List Position := Group.positionsOfAll forest

variable {forest : Forest}

theorem length_positions : forest.positions.length = ruleCount forest := by
  have same := congrArg List.length (Group.map_ruleAt?_positionsOfAll forest)
  rwa [List.length_map, List.length_map] at same

theorem nodup_positions : forest.positions.Nodup :=
  (Group.pairwise_positionsOfAll forest).imp Position.Before.ne

theorem ncard_positions : Set.ncard {position | (ruleAt? forest position).isSome} =
    ruleCount forest := by
  have same : {position | (ruleAt? forest position).isSome} =
      (forest.positions.toFinset : Set Position) := by
    ext position
    rw [List.coe_toFinset]
    exact Group.mem_positionsOfAll_iff_ruleAt?.symm
  rw [same, Set.ncard_coe_finset, List.toFinset_card_of_nodup nodup_positions, length_positions]

/-- The rules of a forest are those at its positions, each position once and in order. A longer list
of groups has the rules of its parts one after the other, the count of rules is the number of
positions, and a group is empty exactly if it has no rule at any depth. -/
theorem rules_traversed (forest : Forest) :
    (∃ positions : List Position, positions.Nodup ∧ positions.Pairwise Position.Before ∧
      (∀ position, position ∈ positions ↔ (ruleAt? forest position).isSome) ∧
      (rules forest).map some = positions.map (ruleAt? forest)) ∧
    (∀ other, rules (forest ++ other) = rules forest ++ rules other) ∧
    ruleCount forest = Set.ncard {position | (ruleAt? forest position).isSome} ∧
    ∀ group : Group, group.isEmpty ↔ rules [group] = [] := by
  refine ⟨⟨forest.positions, nodup_positions, ?_, ?_, ?_⟩, ?_, ?_, ?_⟩
  · exact Group.pairwise_positionsOfAll forest
  · exact fun position ↦ Group.mem_positionsOfAll_iff_ruleAt?
  · exact (Group.map_ruleAt?_positionsOfAll forest).symm
  · exact Group.flattenAll_append forest
  · exact ncard_positions.symm
  · intro group
    rw [Group.isEmpty_iff, rules, Group.flattenAll, Group.flattenAll, List.append_nil]

end Forest

end CallSearch
