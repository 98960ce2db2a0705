import Mathlib.Data.List.Basic
import CallSearch.Filter.Document
import CallSearch.Json.Same

namespace CallSearch

namespace Reading

variable {α β : Type}

@[simp] theorem map_value (f : α → β) (a : α) : f <$> value a = value (f a) := rfl

@[simp] theorem seq_value (f : α → β) (a : α) : value f <*> value a = value (f a) := rfl

@[simp] theorem under_value (name : String) (a : α) : (value a).under name = value a := rfl

theorem sequenceFrom_value (items : List α) (i : ℕ) :
    sequenceFrom i (items.map value) = value items := by
  induction items generalizing i with
  | nil => rfl
  | cons a rest ih =>
    rw [List.map_cons, sequenceFrom, ih, under_value, map_value, seq_value]

@[simp] theorem sequence_value (items : List α) : sequence (items.map value) = value items :=
  sequenceFrom_value items 0

end Reading

namespace Json

variable {document : Json} {name : String} {value : Json} {α : Type} {read : Json → Reading α}

theorem optional_member (found : document.member? name = some value) (others : List String)
    (absent : α) (read : Json → Reading α) :
    document.optional (name :: others) absent read = (read value).under name := by
  simp only [optional, firstMember?, found]

@[simp] theorem readText_str (s : String) : readText (.str s) = .value s := rfl

@[simp] theorem readNullable_ofText? (s? : Option String) :
    readNullable readText (.ofText? s?) = .value s? := by
  cases s? <;> rfl

theorem same_str (s t : String) : (str s).same (.str t) = (s == t) := by rw [same]

theorem eq_of_same_ofText? {s? t? : Option String} (h : (ofText? s?).same (.ofText? t?) = true) :
    s? = t? := by
  cases s? with
  | none =>
    cases t? with
    | none => rfl
    | some t => simp [ofText?, same, amount?] at h
  | some s =>
    cases t? with
    | none => simp [ofText?, same, amount?] at h
    | some t =>
      rw [ofText?, ofText?, same_str, beq_iff_eq] at h
      rw [h]

theorem readList_texts (texts : List String) :
    readList readText (.arr (texts.map .str)) = .value texts := by
  rw [readList, List.map_map]
  exact Reading.sequence_value texts

end Json

namespace Rule

theorem read_toJson (rule : Rule) : read rule.toJson = pure (.value rule) := by
  have condition : Condition.read rule.toJson = .value rule.toCondition := by
    simp [Condition.read, toJson, Json.required, Json.optional, Json.firstMember?, Json.member?,
      List.lookup_cons]
  have id : rule.toJson.member? "id" = some (.str rule.id) := rfl
  rw [toJson] at condition id ⊢
  rw [read, id, condition]
  rfl

theorem readAll_toJson (rules : List Rule) :
    readAll (.arr (rules.map toJson)) = pure (.value rules) := by
  rw [readAll, List.mapM_map]
  simp only [Function.comp_def, read_toJson, List.mapM_pure, pure_bind, Reading.sequence_value]

theorem eq_of_same {rule other : Rule} (h : rule.toJson.same other.toJson = true) :
    rule = other := by
  simp only [toJson, Json.same, Json.sameMembers, List.lookup_cons, String.reduceBEq, Bool.and_true,
    Bool.and_eq_true, beq_iff_eq] at h
  obtain ⟨-, id, column, operation, value, subkey⟩ := h
  have subkey := Json.eq_of_same_ofText? subkey
  obtain ⟨⟨c, o, v, k⟩, i⟩ := rule
  obtain ⟨⟨c', o', v', k'⟩, i'⟩ := other
  cases id; cases column; cases operation; cases value; cases subkey
  rfl

theorem eq_of_sameItems {rules others : List Rule}
    (h : Json.sameItems (rules.map toJson) (others.map toJson) = true) : rules = others := by
  induction rules generalizing others with
  | nil =>
    cases others with
    | nil => rfl
    | cons other rest => simp [Json.sameItems] at h
  | cons rule rest ih =>
    cases others with
    | nil => simp [Json.sameItems] at h
    | cons other others =>
      rw [List.map_cons, List.map_cons, Json.sameItems, Bool.and_eq_true] at h
      rw [eq_of_same h.1, ih h.2]

end Rule

namespace Group

theorem toJsonAll_eq (groups : List Group) : toJsonAll groups = groups.map toJson := by
  induction groups with
  | nil => rfl
  | cons group rest ih => rw [toJsonAll, ih, List.map_cons]

theorem ofName?_name (logic : Logic) : Logic.ofName? logic.name = some logic := by
  cases logic <;> rfl

theorem optional_logic (group : Group) :
    group.toJson.optional ["logic"] .and (Json.readChoice Logic.ofName?) = .value group.logic := by
  obtain ⟨id, logic, rules, groups⟩ := group
  have found : (Group.mk id logic rules groups).toJson.member? "logic" = some (.str logic.name) :=
    rfl
  rw [Json.optional_member found, Json.readChoice, ofName?_name]
  rfl

theorem read_written (group : Group) :
    read group.toJson = (do
      let rules ← Reading.under "filters" <$> Rule.readAll (.arr (group.rules.map Rule.toJson))
      let groups ← (toJsonAll group.groups).attach.mapM fun item ↦ read item.1
      return Group.mk <$> .value group.id <*> .value group.logic <*> rules
        <*> (Reading.sequence groups).under "groups" : Fresh (Reading Group)) := by
  have known := optional_logic group
  obtain ⟨id, logic, rules, groups⟩ := group
  rw [toJson] at known ⊢
  rw [read, known]
  rfl

theorem read_of_groups {group : Group}
    (inner : (toJsonAll group.groups).mapM read = pure (group.groups.map Reading.value)) :
    read group.toJson = pure (.value group) := by
  have attached : (toJsonAll group.groups).attach.mapM (fun item ↦ read item.1) =
      pure (group.groups.map Reading.value) := by
    rw [← inner]
    conv_rhs => rw [← List.attach_map_subtype_val (toJsonAll group.groups), List.mapM_map]
    rfl
  rw [read_written, Rule.readAll_toJson, attached, map_pure, pure_bind, pure_bind,
    Reading.sequence_value]
  obtain ⟨id, logic, rules, groups⟩ := group
  rfl

mutual

theorem read_toJson : ∀ group : Group, read group.toJson = pure (.value group)
  | ⟨_, _, _, groups⟩ => read_of_groups (readList_toJson groups)

theorem readList_toJson : ∀ groups : List Group,
    (toJsonAll groups).mapM read = pure (groups.map Reading.value)
  | [] => rfl
  | group :: rest => by
    rw [toJsonAll, List.mapM_cons, read_toJson group, readList_toJson rest]
    rfl

end

theorem readAll_toJson (groups : List Group) :
    readAll (.arr (groups.map toJson)) = pure (.value groups) := by
  rw [readAll, ← toJsonAll_eq, readList_toJson, pure_bind, Reading.sequence_value]

theorem name_injective : Function.Injective Logic.name := fun a b same ↦ by
  have read := ofName?_name a
  rw [same, ofName?_name] at read
  exact (Option.some.inj read).symm

mutual

theorem eq_of_same : ∀ group other : Group, group.toJson.same other.toJson = true → group = other
  | ⟨id, logic, rules, groups⟩, ⟨id', logic', rules', groups'⟩, h => by
    simp only [toJson, Json.same, Json.sameMembers, List.lookup_cons, String.reduceBEq,
      Bool.and_true, Bool.and_eq_true, beq_iff_eq] at h
    obtain ⟨-, sameId, sameLogic, sameRules, sameGroups⟩ := h
    rw [sameId, name_injective sameLogic, Rule.eq_of_sameItems sameRules,
      eq_of_sameItems groups groups' sameGroups]

theorem eq_of_sameItems : ∀ groups others : List Group,
    Json.sameItems (toJsonAll groups) (toJsonAll others) = true → groups = others
  | [], [], _ => rfl
  | [], _ :: _, h => by simp [toJsonAll, Json.sameItems] at h
  | _ :: _, [], h => by simp [toJsonAll, Json.sameItems] at h
  | group :: rest, other :: others, h => by
    rw [toJsonAll, toJsonAll, Json.sameItems, Bool.and_eq_true] at h
    rw [eq_of_same group other h.1, eq_of_sameItems rest others h.2]

end

end Group

namespace Forest

theorem eq_of_same {forest other : Forest}
    (h : (Json.arr (forest.map Group.toJson)).same (.arr (other.map Group.toJson)) = true) :
    forest = other := by
  rw [Json.same, ← Group.toJsonAll_eq, ← Group.toJsonAll_eq] at h
  exact Group.eq_of_sameItems forest other h

end Forest

end CallSearch
