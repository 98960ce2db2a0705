import CallSearch.Proofs.AgentSearch
import CallSearch.Proofs.Compile.Parts
import CallSearch.Proofs.Store.Answer

namespace CallSearch

namespace QuerySource

open Compile

variable {source : QuerySource} {compilation : Compilation}

/-- Whether nothing of a query's groups counts for its compilation but their rules in order, and
each of those only for itself. -/
structure CompiledByRules (source : QuerySource) : Prop where
  reshaped : ∀ groups : Forest, Forest.rules groups = Forest.rules source.groups →
    query { source with groups } = query source
  appended : ∀ first second : Forest, query (source.ofGroups (first ++ second)) = (do
    let one ← query (source.ofGroups first)
    let other ← query (source.ofGroups second)
    return ⟨one.predicates ++ other.predicates, one.dropped ++ other.dropped⟩)
  cleaned : ∀ compilation, query source = .ok compilation →
    query { source with
        groups := Forest.without (compilation.dropped.map Prod.fst) source.groups } =
      .ok { compilation with dropped := [] }

/-- Whether a call satisfies a query, for some plan of the store, exactly if it satisfies every part
of it, and whether those are the calls that an answered query finds. -/
structure Conjoined (source : QuerySource) (engine : Engine) (calls : List Call) : Prop where
  compiled : ∀ part ∈ source.parts, ∃ alone, query part = .ok alone
  satisfied : ∀ call, source.Admits engine call ↔ ∀ part ∈ source.parts, part.Admits engine call
  alone : ∀ part ∈ source.parts, ∀ found, part.Finds engine calls found →
    ∀ call, call ∈ found ↔ call ∈ calls ∧ part.Admits engine call
  members : ∀ chosen, source.Finds engine calls chosen → chosen.Sublist calls ∧
    ∀ call, call ∈ chosen ↔ call ∈ calls ∧ ∀ part ∈ source.parts, part.Admits engine call
  inserted : ∀ rule groups, Forest.Inserts rule source.groups groups →
    (∀ call, ({ source with groups } : QuerySource).Admits engine call →
      source.Admits engine call) ∧
    ∀ chosen found, source.Finds engine calls chosen →
      ({ source with groups } : QuerySource).Finds engine calls found → found.Sublist chosen
  reordered : ∀ groups, Forest.Reorders source.groups groups →
    (∃ changed, query { source with groups } = .ok changed) ∧
    (∀ call, ({ source with groups } : QuerySource).Admits engine call ↔
      source.Admits engine call) ∧
    ∀ chosen found, source.Finds engine calls chosen →
      ({ source with groups } : QuerySource).Finds engine calls found → found = chosen

theorem query_reshaped {groups : Forest} (same : Forest.rules groups = Forest.rules source.groups) :
    query { source with groups } = query source := by
  rw [query, query, same]

theorem query_appended (source : QuerySource) (first second : Forest) :
    query (source.ofGroups (first ++ second)) = (do
      let one ← query (source.ofGroups first)
      let other ← query (source.ofGroups second)
      return ⟨one.predicates ++ other.predicates, one.dropped ++ other.dropped⟩) := by
  have joined : Forest.rules (first ++ second) = Forest.rules first ++ Forest.rules second :=
    Group.flattenAll_append first second
  rw [query_ofGroups, query_ofGroups, query_ofGroups, joined, rules_append]

theorem query_cleaned (compiled : query source = .ok compilation) :
    query { source with
        groups := Forest.without (compilation.dropped.map Prod.fst) source.groups } =
      .ok { compilation with dropped := [] } := by
  obtain ⟨known, reached, hrules, hanomalies, predicates, dropped⟩ := query_ok compiled
  obtain ⟨free, rfl⟩ := rules_eq_ok_iff.mp hrules
  have kept := report_kept source.types source.now (Forest.rules source.groups)
  rw [← dropped, ← Forest.rules_without] at kept
  have free' : ∀ rule ∈ Forest.rules
      (Forest.without (compilation.dropped.map Prod.fst) source.groups),
        ¬Blocks source.types source.now rule.toCondition := by
    intro rule among
    rw [Forest.rules_without] at among
    exact free rule (List.mem_of_mem_filter among)
  rw [predicates]
  exact query_of { source with groups := _ } (rules_eq_ok_iff.mpr ⟨free', kept.symm⟩) hanomalies

theorem query_reordered (compiled : query source = .ok compilation) {groups : Forest}
    (moved : Forest.Reorders source.groups groups) :
    ∃ changed, query { source with groups } = .ok changed := by
  obtain ⟨_, reached, hrules, hanomalies, -, -⟩ := query_ok compiled
  obtain ⟨free, -⟩ := rules_eq_ok_iff.mp hrules
  have free' : ∀ rule ∈ Forest.rules groups, ¬Blocks source.types source.now rule.toCondition :=
    fun rule among ↦ free rule (moved.rules_perm.mem_iff.mpr among)
  exact ⟨_, query_of { source with groups } (rules_eq_ok_iff.mpr ⟨free', rfl⟩) hanomalies⟩

/-- A query is compiled by its rules in order, whatever their groups. Its predicates find the calls
that satisfy the owner, each rule and each signal, so that one more rule never finds a further call
and another order of rules and groups makes no difference. -/
theorem query_conjunction (source : QuerySource) :
    source.CompiledByRules ∧ ∀ compilation, query source = .ok compilation →
      ∀ engine calls, source.Conjoined engine calls := by
  refine ⟨⟨fun groups ↦ query_reshaped, query_appended source, fun compilation ↦ query_cleaned⟩, ?_⟩
  intro compilation compiled engine calls
  obtain ⟨-, -, -, inside⟩ := exists_pieces compiled
  exact {
    compiled := fun part among ↦ (inside part among).imp fun _ ↦ And.left
    satisfied := fun call ↦ admits_iff_parts compiled
    alone := fun part _ found finds call ↦ finds.mem_iff
    members := fun chosen finds ↦
      ⟨finds.sublist, fun call ↦ by rw [finds.mem_iff, admits_iff_parts compiled]⟩
    inserted := by
      intro rule groups inserts
      obtain ⟨before, after, first, second⟩ := inserts.rules
      have more : Forest.rules source.groups ⊆ Forest.rules groups := by
        rw [first, second]
        exact ((List.sublist_cons_self rule after).append_left before).subset
      exact ⟨fun call admitted ↦ admitted.of_subset compiled more,
        fun chosen found finds finds' ↦ finds.fewer more finds'⟩
    reordered := by
      intro groups moved
      obtain ⟨changed, compiled'⟩ := query_reordered compiled moved
      have perm := moved.rules_perm
      exact ⟨⟨changed, compiled'⟩,
        fun call ↦ ⟨fun admitted ↦ admitted.of_subset compiled perm.subset,
          fun admitted ↦ Admits.of_subset compiled' perm.symm.subset admitted⟩,
        fun chosen found ↦ Finds.reordered perm⟩ }

def nested : QuerySource where
  types := []
  now := .startOf default
  owner := some (Predicate.owner "a")
  groups := [⟨"g", .or, [⟨⟨"nowhere", "is_empty", "", none⟩, "r"⟩],
    [⟨"h", .and, [⟨⟨"call_id", "is_empty", "", none⟩, "s"⟩], []⟩]⟩]
  toggles := []
  thresholds := none

theorem query_conjunction_nested :
    ∃ compilation, query nested = .ok compilation ∧ compilation.dropped ≠ [] ∧
      nested.Finds .inOrder [AgentSearch.bareCall 1 "a", AgentSearch.bareCall 2 "b"]
        [AgentSearch.bareCall 1 "a"] ∧
      nested.Conjoined .inOrder [AgentSearch.bareCall 1 "a", AgentSearch.bareCall 2 "b"] := by
  obtain ⟨compilation, compiled, dropped⟩ :
      ∃ compilation, query nested = .ok compilation ∧ compilation.dropped ≠ [] :=
    ⟨_, rfl, List.cons_ne_nil _ _⟩
  exact ⟨compilation, compiled, dropped, ⟨_, rfl, rfl⟩,
    (query_conjunction nested).2 compilation compiled .inOrder _⟩

def unidentified : Rule := ⟨⟨"call_id", "is_empty", "", none⟩, "r"⟩

def repeated (n : ℕ) : QuerySource :=
  { nested with groups := [⟨"g", .and, List.replicate n unidentified, []⟩] }

theorem rules_repeated (n : ℕ) : Forest.rules (repeated n).groups = List.replicate n unidentified :=
  (List.append_nil _).trans (List.append_nil _)

theorem query_repeated (n : ℕ) :
    query (repeated n) =
      .ok ⟨Predicate.owner "a" :: List.replicate n ⟨"call_id", .isNull, .null⟩, []⟩ := by
  have compiled : rules [] nested.now (List.replicate n unidentified) =
      .ok ⟨List.replicate n ⟨"call_id", .isNull, .null⟩, []⟩ := by
    induction n with
    | zero => rfl
    | succ n ih =>
      have first : condition [] nested.now unidentified.toCondition =
        .ok [⟨"call_id", .isNull, .null⟩] := rfl
      rw [List.replicate_succ, rules, first]
      simp only [ih, Except.map]
      rfl
  rw [← rules_repeated n] at compiled
  rw [query_of (repeated n) compiled (anomalies_none none)]
  simp [repeated, nested]

/-- Each of a thousand rules finds a call of the agent, but the store nests them too deep to run them
together. -/
theorem thousand_rules_refused :
    (∀ part ∈ (repeated 1000).parts,
      part.Finds .inOrder [AgentSearch.bareCall 1 "a"] [AgentSearch.bareCall 1 "a"]) ∧
    ∃ compilation, query (repeated 1000) = .ok compilation ∧ compilation.dropped = [] ∧
      ∀ engine, CallTable.Refuses (some [AgentSearch.bareCall 1 "a"]) compilation.predicates engine
        .refused := by
  refine ⟨fun part among ↦ ?_, _, query_repeated 1000, rfl, fun engine ↦ ?_⟩
  · rcases mem_parts_iff.mp among with rfl | ⟨rule, inside, rfl⟩ | ⟨toggle, inside, -⟩
    · exact ⟨_, rfl, rfl⟩
    · rw [rules_repeated] at inside
      obtain rfl := List.eq_of_mem_replicate inside
      exact ⟨_, rfl, rfl⟩
    · cases inside
  · have each : ∀ p ∈ List.replicate 1000 (⟨"call_id", .isNull, .null⟩ : Predicate),
        Test.ofPredicate p = .ok (.isEmpty ⟨.text .callId, none, false⟩) := by
      intro p among
      rw [List.eq_of_mem_replicate among]
      rfl
    have rest := mapM_ok each
    rw [List.map_const', List.length_replicate, ← Test.ofPredicates] at rest
    have translated := Test.ofPredicates_cons (Test.ofPredicate_owner "a")
      (List.replicate 1000 ⟨"call_id", .isNull, .null⟩)
    rw [rest] at translated
    refine .of_ofQuery (Test.ofQuery_deep translated (Test.areDeep_of_long ?_ ?_)) _ engine
    · intro among
      rcases List.mem_cons.mp among with same | among
      · cases same
      · cases List.eq_of_mem_replicate among
    · rw [List.length_cons, List.length_replicate]
      decide

end QuerySource

end CallSearch
