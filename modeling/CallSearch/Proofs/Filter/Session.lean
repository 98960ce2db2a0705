import Mathlib.Data.List.Nodup
import CallSearch.Filter.Edit
import CallSearch.Proofs.Identity

namespace CallSearch

section Positions

variable {α : Type} {items before after before' after' : List α} {a b : α} {i : Int}

/-- Whether a position, counted from the end if it is negative, is between some items. -/
def Stands (i : Int) (before after : List α) : Prop :=
  i = before.length ∨ i = -(after.length + 1)

def OutOfRange (i : Int) (items : List α) : Prop := i < -items.length ∨ items.length ≤ i

theorem Stands.inside (stands : Stands i before after) : ¬OutOfRange i (before ++ a :: after) := by
  intro out
  unfold OutOfRange at out
  rw [List.length_append, List.length_cons] at out
  unfold Stands at stands
  omega

theorem eq_of_length_eq (same : before ++ a :: after = before' ++ b :: after')
    (length : before.length = before'.length) : before = before' ∧ a = b ∧ after = after' := by
  obtain ⟨front, back⟩ := List.append_inj same length
  exact ⟨front, List.cons.inj back⟩

theorem Stands.unique (stands : Stands i before after) (stands' : Stands i before' after')
    (same : before ++ a :: after = before' ++ b :: after') :
    before = before' ∧ a = b ∧ after = after' := by
  apply eq_of_length_eq same
  have length := congrArg List.length same
  simp only [List.length_append, List.length_cons] at length
  unfold Stands at stands stands'
  omega

theorem Edit.item_cases (items : List α) (i : Int) :
    (∃ before a after, items = before ++ a :: after ∧ Stands i before after ∧
        Edit.item items i = .ok a) ∨
      OutOfRange i items ∧ Edit.item items i = .error .outOfRange := by
  unfold Edit.item OutOfRange
  dsimp only
  generalize place : (if i < 0 then i + items.length else i) = index
  by_cases negative : index < 0
  · refine .inr ⟨?_, if_pos negative⟩
    split_ifs at place <;> omega
  · rw [if_neg negative]
    cases found : items[index.toNat]? with
    | none =>
      have behind := List.getElem?_eq_none_iff.mp found
      refine .inr ⟨?_, rfl⟩
      split_ifs at place <;> omega
    | some a =>
      obtain ⟨inside, rfl⟩ := List.getElem?_eq_some_iff.mp found
      refine .inl ⟨items.take index.toNat, _, items.drop (index.toNat + 1), ?_, ?_, rfl⟩
      · rw [← List.drop_eq_getElem_cons inside, List.take_append_drop]
      · unfold Stands
        rw [List.length_take, List.length_drop]
        split_ifs at place <;> omega

end Positions

namespace Forest

variable {forest before after before' after' : Forest} {group group' changed : Group} {id : String}

/-- There is a group, and no two groups have the same id. -/
structure Sound (forest : Forest) : Prop where
  some : forest ≠ []
  distinct : (forest.map Group.id).Nodup

theorem Sound.ne_of_mem (sound : Sound (before ++ group :: after)) :
    (∀ g ∈ before, g.id ≠ group.id) ∧ ∀ g ∈ after, g.id ≠ group.id := by
  have distinct := sound.distinct
  rw [List.map_append, List.map_cons, List.nodup_middle, List.nodup_cons, ← List.map_append]
    at distinct
  constructor
  · intro g inside same
    exact distinct.1 (same ▸ List.mem_map_of_mem (List.mem_append_left _ inside))
  · intro g inside same
    exact distinct.1 (same ▸ List.mem_map_of_mem (List.mem_append_right _ inside))

theorem Sound.unique (sound : Sound (before ++ group :: after))
    (same : before ++ group :: after = before' ++ group' :: after') (id : group.id = group'.id) :
    before = before' ∧ group = group' ∧ after = after' := by
  apply eq_of_length_eq same
  have sound' : Sound (before' ++ group' :: after') := same ▸ sound
  rcases List.append_eq_append_iff.mp same with ⟨between, rfl, rest⟩ | ⟨between, rfl, rest⟩
  · cases between with
    | nil => rw [List.append_nil]
    | cons first between =>
      obtain ⟨rfl, -⟩ := List.cons.inj rest
      have inside : group ∈ before ++ group :: between := by simp
      exact absurd id (sound'.ne_of_mem.1 group inside)
  · cases between with
    | nil => rw [List.append_nil]
    | cons first between =>
      obtain ⟨rfl, -⟩ := List.cons.inj rest
      have inside : group' ∈ before' ++ group' :: between := by simp
      exact absurd id.symm (sound.ne_of_mem.1 group' inside)

theorem update_absent (absent : ∀ g ∈ forest, g.id ≠ changed.id) :
    forest.update changed = forest := by
  unfold update
  nth_rewrite 2 [← List.map_id forest]
  refine List.map_congr_left fun g inside ↦ ?_
  rw [if_neg (by simpa using absent g inside), id_eq]

theorem Sound.update_eq (sound : Sound (before ++ group :: after)) (same : changed.id = group.id) :
    update (before ++ group :: after) changed = before ++ changed :: after := by
  obtain ⟨front, back⟩ := sound.ne_of_mem
  have kept : update before changed = before := update_absent (same ▸ front)
  have kept' : update after changed = after := update_absent (same ▸ back)
  unfold update at kept kept' ⊢
  rw [List.map_append, List.map_cons, kept, kept', if_pos (by simp [same])]

theorem remove_absent (absent : ∀ g ∈ forest, g.id ≠ id) : forest.remove id = forest := by
  unfold remove
  split
  · rfl
  · refine List.filter_eq_self.mpr fun g inside ↦ ?_
    simpa using absent g inside

theorem Sound.remove_eq (sound : Sound (before ++ group :: after)) :
    remove (before ++ group :: after) group.id =
      if before ++ after = [] then before ++ group :: after else before ++ after := by
  obtain ⟨front, back⟩ := sound.ne_of_mem
  have alone : (before ++ group :: after).length ≤ 1 ↔ before ++ after = [] := by
    rw [← List.length_eq_zero_iff, List.length_append, List.length_append, List.length_cons]
    omega
  have kept : before.filter (·.id != group.id) = before :=
    List.filter_eq_self.mpr fun g inside ↦ by simpa using front g inside
  have kept' : after.filter (·.id != group.id) = after :=
    List.filter_eq_self.mpr fun g inside ↦ by simpa using back g inside
  simp only [remove, alone, List.filter_append, List.filter_cons, bne_self_eq_false,
    Bool.false_eq_true, if_false, kept, kept']

theorem Sound.replace (sound : Sound (before ++ group :: after)) (same : changed.id = group.id) :
    Sound (before ++ changed :: after) where
  some := by simp
  distinct := by
    have distinct := sound.distinct
    rw [List.map_append, List.map_cons] at distinct ⊢
    rwa [same]

theorem Sound.append (sound : Sound forest) (new : ∀ g ∈ forest, g.id ≠ group.id) :
    Sound (forest ++ [group]) where
  some := by simp
  distinct := by
    rw [List.map_append, List.nodup_append]
    refine ⟨sound.distinct, List.nodup_singleton _, ?_⟩
    intro id inside other last same
    obtain ⟨g, among, rfl⟩ := List.mem_map.mp inside
    rw [List.map_cons, List.map_nil, List.mem_singleton] at last
    exact new g among (same.trans last)

theorem Sound.erase (sound : Sound (before ++ group :: after)) (others : before ++ after ≠ []) :
    Sound (before ++ after) where
  some := others
  distinct := by
    have distinct := sound.distinct
    rw [List.map_append, List.map_cons, List.nodup_middle, ← List.map_append] at distinct
    exact distinct.of_cons

end Forest

namespace Edit

open Forest

/-- Whether a target is a group between others, by its position or its id. -/
def Means (target : Target) (before : Forest) (group : Group) (after : Forest) : Prop :=
  match target with
  | .position i => Stands i before after
  | .id id => group.id = id

/-- Whether an edit is about one group, with those before and after it. -/
def Aims (edit : Edit) (before : Forest) (group : Group) (after : Forest) : Prop :=
  match edit with
  | .clear | .append _ => False
  | .addRule i _ | .removeRule i _ | .setLogic i _ => Stands i before after
  | .update changed => group.id = changed.id
  | .remove target | .duplicate target => Means target before group after

/-- What an edit of the content of a group makes of it. -/
def Makes (edit : Edit) (group changed : Group) : Prop :=
  match edit with
  | .addRule _ rule => changed = group.addRule rule
  | .removeRule _ (.id id) => changed = group.removeRule id
  | .removeRule _ (.position i) =>
    ∃ before rule after, group.rules = before ++ rule :: after ∧ Stands i before after ∧
      changed = group.removeRule rule.id
  | .setLogic _ (.logic logic) => changed = group.setLogic logic
  | .update new => changed = new
  | _ => False

/-- Whether an edit is rejected: a position is out of range, or the logic is none. -/
def Rejected (edit : Edit) (forest : Forest) : Prop :=
  match edit with
  | .addRule i _ | .remove (.position i) | .duplicate (.position i) => OutOfRange i forest
  | .removeRule i (.position j) => OutOfRange i forest ∨
    ∃ before group after, forest = before ++ group :: after ∧ Stands i before after ∧
      OutOfRange j group.rules
  | .removeRule i (.id _) | .setLogic i (.logic _) => OutOfRange i forest
  | .setLogic _ (.unknown _) => True
  | _ => False

/-- What an edit does to a list of groups. It leaves the list as it is only if it is rejected, if it
is about a group that is not there, or if it would remove the last group. -/
inductive Changes : Forest → Edit → Forest → Prop
  | clears (forest : Forest) (id : String) : Changes forest .clear [⟨id, .and, [], []⟩]
  | appends (forest : Forest) (logic : Logic) (id : String) (new : ∀ g ∈ forest, g.id ≠ id) :
      Changes forest (.append logic) (forest ++ [⟨id, logic, [], []⟩])
  | replaces {edit : Edit} {before after : Forest} {group changed : Group}
      (aims : edit.Aims before group after) (makes : edit.Makes group changed)
      (same : changed.id = group.id) :
      Changes (before ++ group :: after) edit (before ++ changed :: after)
  | removes {target : Target} {before after : Forest} {group : Group}
      (means : Means target before group after) (others : before ++ after ≠ []) :
      Changes (before ++ group :: after) (.remove target) (before ++ after)
  | spares {target : Target} {group : Group} (means : Means target [] group []) :
      Changes [group] (.remove target) [group]
  | duplicates {target : Target} {before after : Forest} {group copy : Group}
      (means : Means target before group after)
      (new : ∀ g ∈ before ++ group :: after, g.id ≠ copy.id) :
      Changes (before ++ group :: after) (.duplicate target) (before ++ group :: after ++ [copy])
  | misses {forest : Forest} {edit : Edit}
      (absent : (∃ changed, edit = .update changed ∧ ∀ g ∈ forest, g.id ≠ changed.id) ∨
        ∃ id, (edit = .remove (.id id) ∨ edit = .duplicate (.id id)) ∧ ∀ g ∈ forest, g.id ≠ id) :
      Changes forest edit forest
  | rejects {forest : Forest} {edit : Edit} (rejected : edit.Rejected forest) :
      Changes forest edit forest

theorem apply_eq (forest : Forest) (edit : Edit) (supply : IdSupply) :
    ((edit.apply forest).run supply).1 =
      match ((edit.perform forest).run supply).1 with
      | .ok next => next
      | .error _ => forest := by
  unfold apply
  rw [StateT.run_bind]
  generalize (edit.perform forest).run supply = answer
  obtain ⟨_ | next, rest⟩ := answer <;> rfl

section Step

variable {forest next : Forest} {edit : Edit} {supply : IdSupply} {error : EditError}

theorem apply_ok (performed : ((edit.perform forest).run supply).1 = .ok next) :
    ((edit.apply forest).run supply).1 = next := by
  rw [apply_eq, performed]

theorem apply_error (performed : ((edit.perform forest).run supply).1 = .error error) :
    ((edit.apply forest).run supply).1 = forest := by
  rw [apply_eq, performed]

theorem idOf_cases (forest : Forest) (target : Target) :
    (∃ before group after, forest = before ++ group :: after ∧ Means target before group after ∧
        idOf forest Group.id target = .ok group.id) ∨
      (∃ id, target = .id id ∧ (∀ g ∈ forest, g.id ≠ id) ∧
        idOf forest Group.id target = .ok id) ∨
      ∃ i, target = .position i ∧ OutOfRange i forest ∧
        idOf forest Group.id target = .error .outOfRange := by
  cases target with
  | position i =>
    rcases item_cases forest i with ⟨before, group, after, parts, stands, found⟩ | ⟨out, failed⟩
    · exact .inl ⟨before, group, after, parts, stands, by rw [idOf, found]; rfl⟩
    · exact .inr (.inr ⟨i, rfl, out, by rw [idOf, failed]; rfl⟩)
  | id id =>
    by_cases present : ∃ g ∈ forest, g.id = id
    · obtain ⟨g, inside, rfl⟩ := present
      obtain ⟨before, after, parts⟩ := List.append_of_mem inside
      exact .inl ⟨before, g, after, parts, rfl, rfl⟩
    · refine .inr (.inl ⟨id, rfl, ?_, rfl⟩)
      intro g inside same
      exact present ⟨g, inside, same⟩

theorem perform_remove (forest : Forest) (target : Target) (supply : IdSupply) :
    (((Edit.remove target).perform forest).run supply).1 =
      (idOf forest Group.id target).map forest.remove := rfl

theorem perform_duplicate (forest : Forest) (target : Target) (supply : IdSupply) :
    (((Edit.duplicate target).perform forest).run supply).1 =
      (idOf forest Group.id target).map fun id ↦ ((forest.duplicate id).run supply).1 := by
  rw [perform]
  cases idOf forest Group.id target <;> rfl

theorem perform_setLogic (forest : Forest) (i : Int) (logic : LogicRequest) (supply : IdSupply) :
    (((Edit.setLogic i logic).perform forest).run supply).1 =
      (item forest i).bind fun group ↦
        match logic with
        | .logic logic => .ok (forest.update (group.setLogic logic))
        | .unknown shown => .error (.invalidLogic shown) := by
  cases logic <;> rfl

theorem perform_removeRule (forest : Forest) (i : Int) (target : Target) (supply : IdSupply) :
    (((Edit.removeRule i target).perform forest).run supply).1 =
      (item forest i).bind fun group ↦
        (idOf group.rules Rule.id target).map fun id ↦ forest.update (group.removeRule id) := rfl

theorem id_renewed (group : Group) (supply : IdSupply) :
    (group.renewed.run supply).1.id = IdSupply.idOf supply.next := by
  obtain ⟨id, logic, rules, groups⟩ := group
  rfl

/-- The next id that a supply hands out is that of no group. -/
def Unused (supply : IdSupply) (forest : Forest) : Prop :=
  ∀ group ∈ forest, group.id ≠ IdSupply.idOf supply.next

theorem changes_update {before after : Forest} {group changed : Group}
    (sound : Sound (before ++ group :: after)) (aims : edit.Aims before group after)
    (makes : edit.Makes group changed) (same : changed.id = group.id)
    (performed : ((edit.perform (before ++ group :: after)).run supply).1 =
      .ok (Forest.update (before ++ group :: after) changed)) :
    Changes (before ++ group :: after) edit
      ((edit.apply (before ++ group :: after)).run supply).1 := by
  rw [apply_ok performed, sound.update_eq same]
  exact .replaces aims makes same

theorem changes_removeRule (sound : forest.Sound) (i : Int) (target : Target) :
    Changes forest (.removeRule i target)
      (((Edit.removeRule i target).apply forest).run supply).1 := by
  have performed := perform_removeRule forest i target supply
  rcases item_cases forest i with ⟨before, group, after, rfl, stands, found⟩ | ⟨out, failed⟩
  · rw [found, Except.bind] at performed
    cases target with
    | id id => exact changes_update sound stands rfl rfl performed
    | position j =>
      rcases item_cases group.rules j with ⟨front, rule, rest, parts, place, known⟩ | ⟨out, failed⟩
      · rw [idOf, known] at performed
        exact changes_update sound stands ⟨front, rule, rest, parts, place, rfl⟩ rfl performed
      · rw [idOf, failed] at performed
        rw [apply_error performed]
        exact .rejects (.inr ⟨before, group, after, rfl, stands, out⟩)
  · rw [failed, Except.bind] at performed
    rw [apply_error performed]
    apply Changes.rejects
    cases target with
    | id id => exact out
    | position j => exact .inl out

theorem changes_setLogic (sound : forest.Sound) (i : Int) (logic : LogicRequest) :
    Changes forest (.setLogic i logic) (((Edit.setLogic i logic).apply forest).run supply).1 := by
  have performed := perform_setLogic forest i logic supply
  rcases item_cases forest i with ⟨before, group, after, rfl, stands, found⟩ | ⟨out, failed⟩
  · rw [found, Except.bind] at performed
    cases logic with
    | logic logic => exact changes_update sound stands rfl rfl performed
    | unknown shown =>
      rw [apply_error performed]
      exact .rejects trivial
  · rw [failed, Except.bind] at performed
    rw [apply_error performed]
    apply Changes.rejects
    cases logic with
    | logic logic => exact out
    | unknown shown => trivial

theorem changes_remove (sound : forest.Sound) (target : Target) :
    Changes forest (.remove target) (((Edit.remove target).apply forest).run supply).1 := by
  have performed := perform_remove forest target supply
  rcases idOf_cases forest target with
    ⟨before, group, after, rfl, means, known⟩ | ⟨id, rfl, absent, known⟩ | ⟨i, rfl, out, failed⟩
  · rw [known] at performed
    rw [apply_ok performed, sound.remove_eq]
    split
    · next alone =>
      obtain ⟨rfl, rfl⟩ := List.append_eq_nil_iff.mp alone
      exact .spares means
    · next others => exact .removes means others
  · rw [known] at performed
    rw [apply_ok performed, remove_absent absent]
    exact .misses (.inr ⟨id, .inl rfl, absent⟩)
  · rw [failed] at performed
    rw [apply_error performed]
    exact .rejects out

theorem changes_duplicate (sound : forest.Sound) (unused : Unused supply forest) (target : Target) :
    Changes forest (.duplicate target) (((Edit.duplicate target).apply forest).run supply).1 := by
  have performed := perform_duplicate forest target supply
  rcases idOf_cases forest target with
    ⟨before, group, after, rfl, means, known⟩ | ⟨id, rfl, absent, known⟩ | ⟨i, rfl, out, failed⟩
  · have found : (before ++ group :: after).find? (·.id == group.id) = some group := by
      rw [List.find?_append, List.find?_eq_none.mpr]
      · simp
      · intro g inside
        simpa using sound.ne_of_mem.1 g inside
    have copied : ((Forest.duplicate (before ++ group :: after) group.id).run supply).1 =
        before ++ group :: after ++ [(group.renewed.run supply).1] := by
      rw [Forest.duplicate, found]
      rfl
    rw [known, Except.map, copied] at performed
    rw [apply_ok performed]
    apply Changes.duplicates means
    rwa [id_renewed]
  · have missing : forest.find? (·.id == id) = none := by simpa using absent
    have kept : ((forest.duplicate id).run supply).1 = forest := by
      rw [Forest.duplicate, missing]
      rfl
    rw [known, Except.map, kept] at performed
    rw [apply_ok performed]
    exact .misses (.inr ⟨id, .inr rfl, absent⟩)
  · rw [failed] at performed
    rw [apply_error performed]
    exact .rejects out

/-- Every edit does what it is for. -/
theorem changes_apply (sound : forest.Sound) (unused : Unused supply forest) (edit : Edit) :
    Changes forest edit ((edit.apply forest).run supply).1 := by
  cases edit with
  | clear => exact .clears forest _
  | append logic => exact .appends forest logic _ unused
  | addRule i rule =>
    have performed : (((Edit.addRule i rule).perform forest).run supply).1 =
        (item forest i).map fun group ↦ forest.update (group.addRule rule) := rfl
    rcases item_cases forest i with ⟨before, group, after, rfl, stands, found⟩ | ⟨out, failed⟩
    · rw [found] at performed
      exact changes_update sound stands rfl rfl performed
    · rw [failed] at performed
      rw [apply_error performed]
      exact .rejects out
  | removeRule i target => exact changes_removeRule sound i target
  | setLogic i logic => exact changes_setLogic sound i logic
  | update changed =>
    have performed : (((Edit.update changed).perform forest).run supply).1 =
        .ok (forest.update changed) := rfl
    by_cases present : ∃ g ∈ forest, g.id = changed.id
    · obtain ⟨group, inside, same⟩ := present
      obtain ⟨before, after, rfl⟩ := List.append_of_mem inside
      exact changes_update sound same rfl same.symm performed
    · have absent : ∀ g ∈ forest, g.id ≠ changed.id := by
        intro g inside same
        exact present ⟨g, inside, same⟩
      rw [apply_ok performed, update_absent absent]
      exact .misses (.inl ⟨changed, rfl, absent⟩)
  | remove target => exact changes_remove sound target
  | duplicate target => exact changes_duplicate sound unused target

theorem Changes.sound (changes : Changes forest edit next) (sound : forest.Sound) : next.Sound := by
  cases changes with
  | clears id => exact ⟨by simp, by simp⟩
  | appends _ _ _ new => exact sound.append new
  | replaces aims makes same => exact sound.replace same
  | removes means others => exact sound.erase others
  | duplicates means new => exact sound.append new
  | spares | misses | rejects => exact sound

theorem Aims.unique {before after before' after' : Forest} {group group' : Group}
    (sound : Sound (before ++ group :: after)) (aims : edit.Aims before group after)
    (aims' : edit.Aims before' group' after')
    (same : before ++ group :: after = before' ++ group' :: after') :
    before = before' ∧ group = group' ∧ after = after' := by
  cases edit with
  | clear | append => cases aims
  | addRule | removeRule | setLogic => exact aims.unique aims' same
  | update changed => exact sound.unique same (aims.trans aims'.symm)
  | remove target | duplicate target =>
    cases target with
    | position i => exact Stands.unique aims aims' same
    | id id => exact sound.unique same (aims.trans aims'.symm)

/-- An edit that is about one group leaves all others as they are, in their places. -/
theorem Changes.others (changes : Changes forest edit next) (sound : forest.Sound)
    {before after : Forest} {group : Group} (parts : forest = before ++ group :: after)
    (aims : edit.Aims before group after) :
    ∃ kept copies, next = before ++ kept ++ after ++ copies ∧
      (kept.length = 1 ∨ kept = [] ∧ ∃ target, edit = .remove target) ∧
      (copies = [] ∨ ∃ target, edit = .duplicate target) := by
  have stays : forest = before ++ [group] ++ after ++ [] := by rw [parts]; simp
  cases changes with
  | clears | appends => cases aims
  | @replaces edit front back group' changed aims' makes same =>
    obtain ⟨rfl, rfl, rfl⟩ := aims'.unique sound aims parts
    exact ⟨[changed], [], by simp, .inl rfl, .inl rfl⟩
  | @removes target front back group' means others =>
    have aims' : (Edit.remove target).Aims front group' back := means
    obtain ⟨rfl, rfl, rfl⟩ := aims'.unique sound aims parts
    exact ⟨[], [], by simp, .inr ⟨rfl, target, rfl⟩, .inl rfl⟩
  | @duplicates target front back group' copy means new =>
    exact ⟨[group], [copy], by rw [parts]; simp, .inl rfl, .inr ⟨target, rfl⟩⟩
  | spares | misses | rejects => exact ⟨[group], [], stays, .inl rfl, .inl rfl⟩

theorem fails_map {α β : Type} {answer : Except EditError α} {f : α → β} :
    (∃ error, answer.map f = .error error) ↔ ∃ error, answer = .error error := by
  cases answer <;> simp [Except.map]

theorem item_fails {α : Type} (items : List α) (i : Int) :
    (∃ error, item items i = .error error) ↔ OutOfRange i items := by
  rcases item_cases items i with ⟨before, a, after, rfl, stands, found⟩ | ⟨out, failed⟩
  · simp [found, stands.inside]
  · simp [failed, out]

theorem idOf_fails {α : Type} (items : List α) (id : α → String) (target : Target) :
    (∃ error, idOf items id target = .error error) ↔
      ∃ i, target = .position i ∧ OutOfRange i items := by
  cases target with
  | position i => simp [idOf, fails_map, item_fails]
  | id id => simp [idOf]

theorem fails_iff (forest : Forest) (edit : Edit) (supply : IdSupply) :
    (∃ error, ((edit.perform forest).run supply).1 = .error error) ↔ edit.Rejected forest := by
  cases edit with
  | clear | append | update => exact iff_of_false (fun ⟨_, failed⟩ ↦ nomatch failed) id
  | addRule i rule => exact fails_map.trans (item_fails forest i)
  | removeRule i target =>
    rw [perform_removeRule]
    rcases item_cases forest i with ⟨before, group, after, rfl, stands, found⟩ | ⟨out, failed⟩
    · rw [found, Except.bind, fails_map, idOf_fails]
      cases target with
      | id id => simp [Rejected, stands.inside]
      | position j =>
        constructor
        · rintro ⟨_, ⟨⟩, out⟩
          exact .inr ⟨before, group, after, rfl, stands, out⟩
        · rintro (out | ⟨front, other, rest, same, place, out⟩)
          · exact absurd out stands.inside
          · obtain ⟨-, rfl, -⟩ := stands.unique place same
            exact ⟨j, rfl, out⟩
    · rw [failed, Except.bind]
      cases target <;> simp [Rejected, out]
  | setLogic i logic =>
    rw [perform_setLogic]
    rcases item_cases forest i with ⟨before, group, after, rfl, stands, found⟩ | ⟨out, failed⟩
    · rw [found, Except.bind]
      cases logic <;> simp [Rejected, stands.inside]
    · rw [failed, Except.bind]
      cases logic <;> simp [Rejected, out]
  | remove target =>
    rw [perform_remove, fails_map, idOf_fails]
    cases target <;> simp [Rejected]
  | duplicate target =>
    rw [perform_duplicate, fails_map, idOf_fails]
    cases target <;> simp [Rejected]

theorem length_remove (sound : forest.Sound) (id : String) :
    (forest.remove id).length =
      if id ∈ forest.map Group.id ∧ 1 < forest.length then forest.length - 1
      else forest.length := by
  by_cases present : id ∈ forest.map Group.id
  · obtain ⟨group, inside, rfl⟩ := List.mem_map.mp present
    obtain ⟨before, after, rfl⟩ := List.append_of_mem inside
    have alone : ¬1 < (before ++ group :: after).length ↔ before ++ after = [] := by
      rw [← List.length_eq_zero_iff, List.length_append, List.length_append, List.length_cons]
      omega
    simp only [sound.remove_eq, present, true_and, ← alone]
    split_ifs <;> simp
  · have absent : ∀ g ∈ forest, g.id ≠ id := by
      intro g inside same
      exact present (List.mem_map.mpr ⟨g, inside, same⟩)
    rw [remove_absent absent, if_neg (fun both ↦ present both.1)]

/-- What holds of an edit that is made where no group has the next id. -/
structure Orderly (edit : Edit) (forest : Forest) (supply : IdSupply) : Prop where
  changes : Changes forest edit ((edit.apply forest).run supply).1
  fails : (∃ error, ((edit.perform forest).run supply).1 = .error error) ↔ edit.Rejected forest
  rejected : edit.Rejected forest → ((edit.apply forest).run supply).1 = forest
  others : ∀ before group after, forest = before ++ group :: after → edit.Aims before group after →
    ∃ kept copies, ((edit.apply forest).run supply).1 = before ++ kept ++ after ++ copies ∧
      (kept.length = 1 ∨ kept = [] ∧ ∃ target, edit = .remove target) ∧
      (copies = [] ∨ ∃ target, edit = .duplicate target)
  shortened : ∀ target id, edit = .remove target → idOf forest Group.id target = .ok id →
    ((edit.apply forest).run supply).1.length =
      if id ∈ forest.map Group.id ∧ 1 < forest.length then forest.length - 1 else forest.length

theorem orderly (sound : forest.Sound) (unused : Unused supply forest) (edit : Edit) :
    edit.Orderly forest supply where
  changes := changes_apply sound unused edit
  fails := fails_iff forest edit supply
  rejected rejected := by
    obtain ⟨error, failed⟩ := (fails_iff forest edit supply).mpr rejected
    exact apply_error failed
  others _ _ _ parts aims := (changes_apply sound unused edit).others sound parts aims
  shortened := by
    rintro target id rfl known
    have performed := perform_remove forest target supply
    rw [known] at performed
    rw [apply_ok performed]
    exact length_remove sound id

end Step

/-- The lists of groups that edits lead to. -/
inductive Reaches (start : Forest) : Forest → Prop
  | start : Reaches start start
  | edit {forest : Forest} (reaches : Reaches start forest) (edit : Edit) (supply : IdSupply)
      (unused : Unused supply forest) : Reaches start ((edit.apply forest).run supply).1

theorem Reaches.sound {start forest : Forest} (reaches : Reaches start forest)
    (sound : start.Sound) : forest.Sound := by
  induction reaches with
  | start => exact sound
  | edit _ edit supply unused ih => exact (changes_apply ih unused edit).sound ih

/-- In a session that starts from the cleared list, or from any groups with distinct ids, there is
always a group, the ids stay distinct, and every edit changes nothing but what it is about. -/
theorem session_orderly :
    (∀ supply, Forest.Sound (cleared.run supply).1) ∧
    ∀ start forest, Forest.Sound start → Reaches start forest →
      forest.Sound ∧ ∀ edit supply, Unused supply forest → Orderly edit forest supply := by
  constructor
  · intro supply
    exact ⟨by simp [cleared, Group.blank], List.nodup_singleton _⟩
  · intro start forest sound reaches
    have stays := reaches.sound sound
    exact ⟨stays, fun edit supply unused ↦ orderly stays unused edit⟩

/-- After a group is added to the cleared list, the last group can be removed again. -/
theorem session_orderly_two :
    let one := (cleared.run ⟨0⟩).1
    let two := (((Edit.append .or).apply one).run ⟨1⟩).1
    Reaches one two ∧ two.length = 2 ∧
      (((Edit.remove (.position (-1))).apply two).run ⟨2⟩).1.length = 1 := by
  intro one two
  have distinct : ∀ n m, n ≠ m → IdSupply.idOf n ≠ IdSupply.idOf m := fun n m ↦
    IdSupply.idOf_injective.ne
  have unused : Unused ⟨1⟩ one := by
    intro group inside
    obtain rfl := List.mem_singleton.mp inside
    exact distinct 0 1 (by decide)
  have reaches : Reaches one two := .edit .start (.append .or) ⟨1⟩ unused
  have unused' : Unused ⟨2⟩ two := by
    intro group inside
    rcases List.mem_pair.mp inside with rfl | rfl
    · exact distinct 0 2 (by decide)
    · exact distinct 1 2 (by decide)
  obtain ⟨starts, orderly⟩ := session_orderly
  have removes := (orderly one two (starts _) reaches).2 (.remove (.position (-1))) ⟨2⟩ unused'
  refine ⟨reaches, rfl, ?_⟩
  rw [removes.shortened _ (IdSupply.idOf 1) rfl rfl, if_pos ⟨.tail _ (.head _), by decide⟩]
  rfl

end Edit

end CallSearch
