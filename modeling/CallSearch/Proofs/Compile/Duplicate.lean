import CallSearch.Proofs.Compile.Conjunction
import CallSearch.Proofs.Filter.Shape

namespace CallSearch

namespace Compile

variable {types : ColumnTypes} {now : Timestamp} {items others : List Rule}

theorem report_predicates (items : List Rule) :
    (report types now items).predicates =
      (items.map (·.toCondition)).flatMap fun c ↦ (condition types now c).toOption.getD [] := by
  rw [List.flatMap_map]
  rfl

theorem free_of_sameConditions (same : items.map (·.toCondition) = others.map (·.toCondition))
    (free : ∀ rule ∈ items, ¬Blocks types now rule.toCondition) :
    ∀ rule ∈ others, ¬Blocks types now rule.toCondition := by
  intro rule inside
  have among : rule.toCondition ∈ items.map (·.toCondition) := same ▸ List.mem_map_of_mem inside
  obtain ⟨first, inside', alike⟩ := List.mem_map.mp among
  exact alike ▸ free first inside'

end Compile

namespace QuerySource

open Compile

variable {source : QuerySource} {compilation : Compilation} {group other : Group}
  {before after : Forest}

theorem query_ofGroup
    (compiled : query (source.ofGroups (before ++ group :: after)) = .ok compilation) :
    ∃ own, query (source.ofGroups [group]) = .ok own := by
  rw [query_appended] at compiled
  obtain ⟨_, _, compiled⟩ := ok_of_bind compiled
  obtain ⟨_, rest, _⟩ := ok_of_bind compiled
  rw [← List.singleton_append, query_appended] at rest
  obtain ⟨own, alone, -⟩ := ok_of_bind rest
  exact ⟨own, alone⟩

theorem query_sameShape (same : other.shape = group.shape)
    (compiled : query (source.ofGroups [group]) = .ok compilation) :
    ∃ changed, query (source.ofGroups [other]) = .ok changed ∧
      changed.predicates = compilation.predicates := by
  have conditions : (Forest.rules [group]).map (·.toCondition) =
      (Forest.rules [other]).map (·.toCondition) := by
    rw [Forest.rules, Forest.rules, ← Group.flattenAll_shapes, ← Group.flattenAll_shapes,
      Group.shapes_eq, Group.shapes_eq, List.map_singleton, List.map_singleton, same]
  rw [query_ofGroups, rules_eq_ok_iff] at compiled
  obtain ⟨free, rfl⟩ := compiled
  refine ⟨report source.types source.now (Forest.rules [other]), ?_, ?_⟩
  · rw [query_ofGroups, rules_eq_ok_iff]
    exact ⟨free_of_sameConditions conditions free, rfl⟩
  · rw [report_predicates, report_predicates, conditions]

end QuerySource

namespace Forest

open Compile QuerySource

variable {forest before after : Forest} {group : Group} {id : String} {supply : IdSupply}

/-- A group that says what another one does, under ids that are neither used twice nor anywhere in a
list of groups. -/
structure Copies (forest : Forest) (group copy : Group) : Prop where
  shape : copy.shape = group.shape
  distinct : copy.ids.Nodup
  new : ∀ id ∈ copy.ids, id ∉ forest.ids

theorem copies_renewed (unused : ∀ n, supply.next ≤ n → IdSupply.idOf n ∉ forest.ids)
    (group : Group) : forest.Copies group (group.renewed.run supply).1 where
  shape := Group.shape_renewed group supply
  distinct := (Group.gives_renewed group supply).nodup
  new := by
    intro id inside
    obtain ⟨n, left, rfl⟩ := (Group.gives_renewed group supply).of_mem inside
    exact unused n left

theorem duplicate_first (first : ∀ g ∈ before, g.id ≠ id) (named : group.id = id) :
    ((duplicate (before ++ group :: after) id).run supply).1 =
      before ++ group :: after ++ [(group.renewed.run supply).1] := by
  have none : before.find? (·.id == id) = none := by simpa using first
  have found : (before ++ group :: after).find? (·.id == id) = some group := by
    simp [List.find?_append, none, named]
  rw [duplicate, found]
  rfl

theorem duplicate_absent (absent : ∀ g ∈ forest, g.id ≠ id) :
    ((forest.duplicate id).run supply).1 = forest := by
  have none : forest.find? (·.id == id) = none := by simpa using absent
  rw [duplicate, none]
  rfl

/-- Of the groups with an id the first is duplicated: a copy of it comes last, all others stay, and
the predicates of the copy come after all others. Where no group has the id nothing changes. -/
theorem duplicate_copies (unused : ∀ n, supply.next ≤ n → IdSupply.idOf n ∉ forest.ids)
    (id : String) :
    (∀ before group after, forest = before ++ group :: after → (∀ g ∈ before, g.id ≠ id) →
      group.id = id →
        ∃ copy, ((forest.duplicate id).run supply).1 = forest ++ [copy] ∧
          forest.Copies group copy ∧
          ∀ (source : QuerySource) compilation, query (source.ofGroups forest) = .ok compilation →
            ∃ own all, query (source.ofGroups [group]) = .ok own ∧
              query (source.ofGroups (forest ++ [copy])) = .ok all ∧
              all.predicates = compilation.predicates ++ own.predicates) ∧
      ((∀ g ∈ forest, g.id ≠ id) → ((forest.duplicate id).run supply).1 = forest) := by
  refine ⟨?_, duplicate_absent⟩
  rintro before group after rfl first named
  have copies := copies_renewed unused group
  refine ⟨_, duplicate_first first named, copies, ?_⟩
  intro source compilation compiled
  obtain ⟨own, alone⟩ := query_ofGroup compiled
  obtain ⟨copied, alone', same⟩ := query_sameShape copies.shape alone
  have all : query (source.ofGroups (before ++ group :: after ++ [(group.renewed.run supply).1])) =
      .ok ⟨compilation.predicates ++ copied.predicates, compilation.dropped ++ copied.dropped⟩ := by
    rw [query_appended, compiled, alone']
    rfl
  exact ⟨own, _, alone, all, congrArg (compilation.predicates ++ ·) same⟩

def twoLevels : Group :=
  ⟨IdSupply.idOf 0, .or, [⟨⟨"call_id", "is_empty", "", none⟩, IdSupply.idOf 1⟩],
    [⟨IdSupply.idOf 2, .and, [⟨⟨"metadata", "json_exists", "", some "k"⟩, IdSupply.idOf 3⟩], []⟩]⟩

theorem duplicate_copies_twoLevels :
    (∀ n, 4 ≤ n → IdSupply.idOf n ∉ Forest.ids [twoLevels]) ∧
      ∃ copy, ((duplicate [twoLevels] (IdSupply.idOf 0)).run ⟨4⟩).1 = [twoLevels, copy] ∧
        Forest.Copies [twoLevels] twoLevels copy ∧
        ∃ all, query (QuerySource.ofGroups ⟨[], .startOf default, none, [], [], none⟩
            [twoLevels, copy]) = .ok all ∧
          all.predicates.map (·.column) =
            ["call_id", "metadata.k", "call_id", "metadata.k"] := by
  have unused : ∀ n, 4 ≤ n → IdSupply.idOf n ∉ Forest.ids [twoLevels] := by
    intro n left
    simp only [Forest.ids, Group.idsOfAll, Group.ids, twoLevels, List.map_cons, List.map_nil,
      List.append_nil, List.cons_append, List.nil_append, List.mem_cons, List.not_mem_nil,
      or_false, IdSupply.idOf_injective.eq_iff]
    omega
  obtain ⟨present, -⟩ := @duplicate_copies [twoLevels] ⟨4⟩ unused (IdSupply.idOf 0)
  obtain ⟨copy, duplicated, copies, compiles⟩ := present [] twoLevels [] rfl (by simp) rfl
  obtain ⟨own, all, alone, compiled, predicates⟩ :=
    compiles ⟨[], .startOf default, none, [], [], none⟩ _ rfl
  refine ⟨unused, copy, duplicated, copies, all, compiled, ?_⟩
  cases alone
  rw [predicates]
  rfl

end Forest

end CallSearch
