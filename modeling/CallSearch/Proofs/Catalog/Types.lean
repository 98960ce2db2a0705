import CallSearch.Proofs.Catalog.Listed
import CallSearch.Proofs.Compile.Query

namespace CallSearch

namespace Catalog

theorem kind_basicField (records : List Json) (basic : Field) :
    (basicField records basic).kind = basic.kind := by
  obtain ⟨samples, count, distinct, same⟩ := exists_basicField records basic
  rw [same]

theorem dotted_memberFields {records : List Json} {source : PayloadSource} {field : Field}
    (listed : field ∈ memberFields records source) : '.' ∈ field.path.toList := by
  obtain ⟨name, -, rfl⟩ := List.mem_map.mp listed
  change '.' ∈ (source.column ++ "." ++ name).toList
  simp

end Catalog

namespace Compile

open Catalog

theorem columnTypes_build (records : List Json) :
    columnTypes (Catalog.build records) = columnTypes basicFields := by
  have members : (payloadSources.flatMap (memberFields records)).filter
      (fun field ↦ !field.path.toList.contains '.') = [] := by
    refine List.filter_eq_nil_iff.mpr fun field listed ↦ ?_
    obtain ⟨source, -, inside⟩ := List.mem_flatMap.mp listed
    simp [dotted_memberFields inside]
  simp only [columnTypes, Catalog.build, List.filter_append, members, List.append_nil,
    List.filter_map, ← List.map_reverse, List.map_map, Function.comp_def, path_basicField,
    kind_basicField]

variable {types : ColumnTypes} {now : Timestamp} {c : Condition} {rule : Rule}

/-- A rule on a column of the registry is compiled without looking at the types of a catalog. -/
theorem condition_registered (types others : ColumnTypes) (known : Column.ofName? c.column ≠ none) :
    condition types now c = condition others now c := by
  obtain ⟨column, known⟩ := Option.ne_none_iff_exists'.mp known
  rw [condition, condition, prepare_eq known, prepare_eq known]

theorem condition_untyped (unknown : Column.ofName? c.column = none) :
    ∃ fault, condition [] now c = .error (.fault fault) := by
  unfold condition prepare resolveType
  rw [unknown]
  cases Operation.ofName? c.operation with
  | none => exact ⟨_, rfl⟩
  | some operation => exact ⟨_, rfl⟩

theorem predicatesOf_untyped :
    (predicatesOf [] now rule).Sublist (predicatesOf types now rule) := by
  by_cases unknown : Column.ofName? rule.column = none
  · obtain ⟨fault, failed⟩ : ∃ fault, condition [] now rule.toCondition = .error (.fault fault) :=
      condition_untyped unknown
    rw [predicatesOf, failed]
    exact List.nil_sublist _
  · rw [predicatesOf, condition_registered [] types unknown]
    exact List.Sublist.refl _

theorem faultOf?_registered (types others : ColumnTypes)
    (known : Column.ofName? rule.column ≠ none) :
    faultOf? types now rule = faultOf? others now rule := by
  rw [faultOf?, faultOf?, condition_registered types others known]

theorem mem_dropped_iff {items : List Rule} {fault : RuleFault} :
    (rule, fault) ∈ (report types now items).dropped ↔
      rule ∈ items ∧ faultOf? types now rule = some fault := by
  simp only [report, List.mem_filterMap, Option.map_eq_some_iff, Prod.mk.injEq]
  constructor
  · rintro ⟨other, among, found, has, rfl, rfl⟩
    exact ⟨among, has⟩
  · rintro ⟨among, has⟩
    exact ⟨rule, among, fault, has, rfl, rfl⟩

theorem report_untyped (items : List Rule) :
    (report [] now items).predicates.Sublist (report types now items).predicates := by
  induction items with
  | nil => exact List.nil_sublist _
  | cons rule rest ih =>
    simp only [report, List.flatMap_cons]
    exact predicatesOf_untyped.append ih

/-- Whatever sample a catalog is built from, a query is compiled to the same result or stops in the
same way. With the empty catalog that is there when no sample can be taken, it has some of the
predicates, in the same order, and only rules on columns outside the registry are reported for it
alone. -/
theorem query_any_sample (source : QuerySource) :
    (∀ first second : List Json,
      query { source with types := columnTypes (Catalog.build first) } =
        query { source with types := columnTypes (Catalog.build second) }) ∧
      ∀ (sample : List Json) (full degraded : Compilation),
        query { source with types := columnTypes (Catalog.build sample) } = .ok full →
        query { source with types := columnTypes [] } = .ok degraded →
          degraded.predicates.Sublist full.predicates ∧
            ∀ rule fault, (rule, fault) ∈ degraded.dropped → (rule, fault) ∉ full.dropped →
              Column.ofName? rule.column = none := by
  refine ⟨fun first second ↦ by rw [columnTypes_build, columnTypes_build], ?_⟩
  intro sample full degraded compiled limited
  obtain ⟨known, reached, hrules, hanomalies, predicates, dropped⟩ := query_ok compiled
  obtain ⟨-, rfl⟩ := rules_eq_ok_iff.mp hrules
  obtain ⟨known', reached', hrules', hanomalies', predicates', dropped'⟩ := query_ok limited
  obtain ⟨-, rfl⟩ := rules_eq_ok_iff.mp hrules'
  obtain rfl : reached = reached' := Except.ok.inj (hanomalies.symm.trans hanomalies')
  constructor
  · rw [predicates, predicates']
    exact ((List.Sublist.refl _).append (report_untyped _)).append (List.Sublist.refl _)
  · intro rule fault lost notLost
    by_contra registered
    rw [dropped', mem_dropped_iff, faultOf?_registered _ source.types registered] at lost
    rw [dropped, mem_dropped_iff, faultOf?_registered _ source.types registered] at notLost
    exact notLost lost

def environmentAndCall : QuerySource where
  types := []
  now := .startOf default
  owner := some (Predicate.owner "a")
  groups := [⟨"g", .and, [⟨⟨"environment", "equals", "test", none⟩, "r"⟩,
    ⟨⟨"call_id", "equals", "c", none⟩, "s"⟩], []⟩]
  toggles := []
  thresholds := none

theorem query_any_sample_environment :
    ∃ full degraded, query { environmentAndCall with
          types := columnTypes (Catalog.build [.obj [("metadata", .obj [("environment", .null)])]]) } =
        .ok full ∧
      query { environmentAndCall with types := columnTypes [] } = .ok degraded ∧
      full.dropped = [] ∧ degraded.dropped.map Prod.snd = [.unknownColumn "environment"] ∧
      degraded.predicates.Sublist full.predicates := by
  have compiled : ∃ full, query { environmentAndCall with
      types := columnTypes (Catalog.build [.obj [("metadata", .obj [("environment", .null)])]]) } =
        .ok full ∧ full.dropped = [] := ⟨_, rfl, rfl⟩
  have limited : ∃ degraded, query { environmentAndCall with types := columnTypes [] } =
      .ok degraded ∧ degraded.dropped.map Prod.snd = [.unknownColumn "environment"] :=
    ⟨_, rfl, rfl⟩
  obtain ⟨full, compiled, nothing⟩ := compiled
  obtain ⟨degraded, limited, lost⟩ := limited
  exact ⟨full, degraded, compiled, limited, nothing, lost,
    ((query_any_sample environmentAndCall).2 _ _ _ compiled limited).1⟩

end Compile

end CallSearch
