import CallSearch.Proofs.Compile.Query
import CallSearch.Proofs.Filter.Tree
import CallSearch.Proofs.Store.Joined

namespace CallSearch

namespace QuerySource

def ofOwner (source : QuerySource) : QuerySource := { source with groups := [], toggles := [] }

/-- The rules of some groups, with what is known for a query, without its owner and its signals. -/
def ofGroups (source : QuerySource) (groups : Forest) : QuerySource :=
  { source with owner := none, groups, toggles := [] }

def ofRule (source : QuerySource) (rule : Rule) : QuerySource :=
  source.ofGroups [⟨"", .and, [rule], []⟩]

def ofToggle (source : QuerySource) (toggle : Toggle) : QuerySource :=
  { source with owner := none, groups := [], toggles := [toggle] }

/-- Every part of a query, taken alone. -/
def parts (source : QuerySource) : List QuerySource :=
  source.ofOwner :: ((Forest.rules source.groups).map source.ofRule ++
    source.toggles.map source.ofToggle)

/-- Whether a call satisfies a query. -/
def Admits (source : QuerySource) (engine : Engine) (call : Call) : Prop :=
  ∃ compilation, Compile.query source = .ok compilation ∧
    engine.Satisfies compilation.predicates call

/-- Whether a query is compiled, and the store finds certain calls for it among some calls. -/
def Finds (source : QuerySource) (engine : Engine) (calls chosen : List Call) : Prop :=
  ∃ compilation, Compile.query source = .ok compilation ∧
    CallTable.select (some calls) compilation.predicates engine = .ok chosen

variable {source : QuerySource} {engine : Engine} {calls chosen : List Call}

theorem Finds.sublist (h : source.Finds engine calls chosen) : chosen.Sublist calls := by
  obtain ⟨_, _, selected⟩ := h
  exact (CallTable.select_satisfying selected).1

theorem Finds.mem_iff (h : source.Finds engine calls chosen) {call : Call} :
    call ∈ chosen ↔ call ∈ calls ∧ source.Admits engine call := by
  obtain ⟨compilation, compiled, selected⟩ := h
  rw [(CallTable.select_satisfying selected).2, Admits, compiled]
  simp

end QuerySource

namespace Compile

section Anomalies

variable {toggles : List Toggle} {toggle : Toggle} {thresholds : Option Thresholds}
  {reached : List Predicate}

theorem signals_ok {active : List Signal} (h : signals toggles = .ok active) :
    toggles = active.map .signal := by
  have each := forall₂_of_mapM h
  clear h
  induction each with
  | nil => rfl
  | @cons toggle signal _ _ first _ ih =>
    rw [ih, List.map_cons]
    cases toggle with
    | signal signal =>
      cases first
      rfl
    | unknown shown => cases first

theorem anomalies_none (thresholds : Option Thresholds) : anomalies [] thresholds = .ok [] := by
  cases thresholds with
  | none => rfl
  | some thresholds =>
    have none : Signal.all.filter (([] : List Signal).contains ·) = [] := rfl
    simp only [anomalies, signals, List.mapM_nil, pure, Except.pure, Except.map, none,
      List.filterMap_nil]

theorem anomalies_single (thresholds : Thresholds) (signal : Signal) :
    anomalies [.signal signal] (some thresholds) =
      .ok (thresholdPredicate? thresholds signal).toList := by
  have active : signals [.signal signal] = .ok [signal] := rfl
  have alone : Signal.all.filter ([signal].contains ·) = [signal] := by cases signal <;> rfl
  simp only [anomalies, active, Except.map, alone, List.filterMap_cons, List.filterMap_nil]
  cases thresholdPredicate? thresholds signal <;> rfl

theorem anomalies_pieces (h : anomalies toggles thresholds = .ok reached) :
    ∃ pieces : List (List Predicate), reached = pieces.flatten ∧
      (∀ piece ∈ pieces, ∃ toggle ∈ toggles, anomalies [toggle] thresholds = .ok piece) ∧
      ∀ toggle ∈ toggles, ∃ piece, anomalies [toggle] thresholds = .ok piece ∧ piece ⊆ reached := by
  cases thresholds with
  | none =>
    cases h
    exact ⟨[], rfl, by simp, fun toggle _ ↦ ⟨[], rfl, List.nil_subset _⟩⟩
  | some thresholds =>
    obtain ⟨active, known, rfl⟩ := ok_map_iff.mp h
    obtain rfl := signals_ok known
    refine ⟨(Signal.all.filter (active.contains ·)).map fun signal ↦
      (thresholdPredicate? thresholds signal).toList, ?_, ?_, ?_⟩
    · rw [← List.flatMap_def, List.filterMap_eq_flatMap_toList]
    · rintro piece among
      obtain ⟨signal, inside, rfl⟩ := List.mem_map.mp among
      have asked : signal ∈ active := by simpa using (List.mem_filter.mp inside).2
      exact ⟨_, List.mem_map_of_mem asked, anomalies_single thresholds signal⟩
    · intro toggle among
      obtain ⟨signal, asked, rfl⟩ := List.mem_map.mp among
      refine ⟨_, anomalies_single thresholds signal, fun p hp ↦ ?_⟩
      have listed : signal ∈ Signal.all := by cases signal <;> decide
      exact List.mem_filterMap.mpr
        ⟨signal, List.mem_filter.mpr ⟨listed, by simpa using asked⟩, by simpa using hp⟩

end Anomalies

section Rules

variable {types : ColumnTypes} {now : Timestamp} {items : List Rule} {rule : Rule}

theorem rules_append (items others : List Rule) :
    rules types now (items ++ others) = (do
      let first ← rules types now items
      let second ← rules types now others
      return ⟨first.predicates ++ second.predicates, first.dropped ++ second.dropped⟩) := by
  induction items with
  | nil =>
    change _ = rules types now others >>= fun second ↦ pure second
    rw [bind_pure]
    rfl
  | cons rule rest ih =>
    rw [List.cons_append, rules, rules, ih]
    cases condition types now rule.toCondition with
    | error failure =>
      cases failure with
      | stop stop => rfl
      | fault fault =>
        cases rules types now rest with
        | error stop => rfl
        | ok first => cases rules types now others <;> rfl
    | ok predicates =>
      cases rules types now rest with
      | error stop => rfl
      | ok first =>
        cases rules types now others with
        | error stop => rfl
        | ok second => simp [bind, Except.bind, Except.map, pure, Except.pure]

theorem predicatesOf_faulty (faulty : faultOf? types now rule ≠ none) :
    predicatesOf types now rule = [] := by
  unfold faultOf? at faulty
  unfold predicatesOf
  cases compiled : condition types now rule.toCondition with
  | error failure => rfl
  | ok predicates => simp [compiled] at faulty

theorem faultOf?_of_not_dropped (among : rule ∈ items)
    (kept : ¬((report types now items).dropped.map Prod.fst).contains rule) :
    faultOf? types now rule = none := by
  by_contra faulty
  obtain ⟨fault, has⟩ := Option.ne_none_iff_exists'.mp faulty
  refine kept (List.contains_iff_mem.mpr (List.mem_map.mpr ⟨(rule, fault), ?_, rfl⟩))
  exact List.mem_filterMap.mpr ⟨rule, among, by rw [has, Option.map_some]⟩

theorem faultOf?_of_dropped
    (dropped : ((report types now items).dropped.map Prod.fst).contains rule) :
    faultOf? types now rule ≠ none := by
  obtain ⟨⟨other, fault⟩, among, rfl⟩ := List.mem_map.mp (List.contains_iff_mem.mp dropped)
  obtain ⟨rule, -, found⟩ := List.mem_filterMap.mp among
  obtain ⟨_, has, same⟩ := Option.map_eq_some_iff.mp found
  cases same
  rw [has]
  exact Option.some_ne_none _

theorem report_kept (types : ColumnTypes) (now : Timestamp) (items : List Rule) :
    report types now (items.filter fun rule ↦
        !((report types now items).dropped.map Prod.fst).contains rule) =
      { report types now items with dropped := [] } := by
  -- The induction below is on the rules, while those that go are the dropped ones of all rules.
  generalize hgone : (report types now items).dropped.map Prod.fst = gone
  have removed (rule : Rule) (h : gone.contains rule) : predicatesOf types now rule = [] := by
    subst hgone
    exact predicatesOf_faulty (faultOf?_of_dropped h)
  have kept (rule : Rule) (among : rule ∈ items) (h : ¬gone.contains rule) :
      faultOf? types now rule = none := by
    subst hgone
    exact faultOf?_of_not_dropped among h
  have predicates : (items.filter fun rule ↦ !gone.contains rule).flatMap (predicatesOf types now) =
      items.flatMap (predicatesOf types now) := by
    clear hgone kept
    induction items with
    | nil => rfl
    | cons rule rest ih =>
      rw [List.filter_cons, List.flatMap_cons]
      split
      · rw [List.flatMap_cons, ih]
      · next gone => rw [ih, removed rule (by simpa using gone), List.nil_append]
  have dropped : (items.filter fun rule ↦ !gone.contains rule).filterMap
      (fun rule ↦ (faultOf? types now rule).map fun fault ↦ (rule, fault)) = [] := by
    refine List.filterMap_eq_nil_iff.mpr fun rule among ↦ ?_
    obtain ⟨among, h⟩ := List.mem_filter.mp among
    rw [kept rule among (by simpa using h), Option.map_none]
  simp only [report, predicates, dropped]

end Rules

section Parts

variable {source : QuerySource} {compilation : Compilation} {call : Call} {calls : List Call}

theorem query_of (source : QuerySource) {compiled : Compilation} {reached : List Predicate}
    (hrules : rules source.types source.now (Forest.rules source.groups) = .ok compiled)
    (hanomalies : anomalies source.toggles source.thresholds = .ok reached) :
    query source = .ok { compiled with
      predicates := source.owner.toList ++ compiled.predicates ++ reached } := by
  rw [query, hrules, hanomalies]
  rfl

theorem query_ofOwner (source : QuerySource) :
    query source.ofOwner = .ok ⟨source.owner.toList, []⟩ := by
  rw [query_of source.ofOwner rfl (anomalies_none source.thresholds)]
  simp [QuerySource.ofOwner]

theorem query_ofGroups (source : QuerySource) (groups : Forest) :
    query (source.ofGroups groups) = rules source.types source.now (Forest.rules groups) := by
  rw [query]
  change (rules source.types source.now (Forest.rules groups) >>= fun compiled ↦
    anomalies [] source.thresholds >>= fun reached ↦
      pure { compiled with predicates := [] ++ compiled.predicates ++ reached }) = _
  rw [anomalies_none]
  cases rules source.types source.now (Forest.rules groups) with
  | error stop => rfl
  | ok compiled => simp [bind, Except.bind, pure, Except.pure]

theorem query_ofRule (source : QuerySource) {rule : Rule}
    (free : ¬Blocks source.types source.now rule.toCondition) :
    query (source.ofRule rule) = .ok (report source.types source.now [rule]) := by
  have alone : Forest.rules [⟨"", .and, [rule], []⟩] = [rule] := rfl
  rw [QuerySource.ofRule, query_ofGroups, alone, rules_eq_ok_iff]
  exact ⟨by simpa using free, rfl⟩

theorem query_ofToggle (source : QuerySource) {toggle : Toggle} {piece : List Predicate}
    (h : anomalies [toggle] source.thresholds = .ok piece) :
    query (source.ofToggle toggle) = .ok ⟨piece, []⟩ :=
  query_of (source.ofToggle toggle) rfl h

end Parts

end Compile

namespace QuerySource

open Compile

variable {source : QuerySource} {compilation : Compilation} {engine : Engine} {call : Call}
  {calls : List Call}

theorem admits_iff (compiled : query source = .ok compilation) :
    source.Admits engine call ↔ engine.Satisfies compilation.predicates call := by
  rw [Admits, compiled]
  simp

theorem mem_parts_iff {part : QuerySource} :
    part ∈ source.parts ↔ part = source.ofOwner ∨
      (∃ rule ∈ Forest.rules source.groups, source.ofRule rule = part) ∨
      ∃ toggle ∈ source.toggles, source.ofToggle toggle = part := by
  simp only [parts, List.mem_cons, List.mem_append, List.mem_map]

/-- The predicates of a query are those of its parts, in one piece each, though a signal that is
asked for twice gives one piece. -/
theorem exists_pieces (compiled : query source = .ok compilation) :
    ∃ pieces : List (List Predicate), compilation.predicates = pieces.flatten ∧
      (∀ piece ∈ pieces, ∃ part ∈ source.parts, ∃ dropped, query part = .ok ⟨piece, dropped⟩) ∧
      ∀ part ∈ source.parts, ∃ alone, query part = .ok alone ∧
        alone.predicates ⊆ compilation.predicates := by
  obtain ⟨known, reached, hrules, hanomalies, predicates, -⟩ := query_ok compiled
  obtain ⟨free, rfl⟩ := rules_eq_ok_iff.mp hrules
  obtain ⟨pieces, rfl, asked, given⟩ := anomalies_pieces hanomalies
  refine ⟨source.owner.toList ::
    ((Forest.rules source.groups).map (predicatesOf source.types source.now) ++ pieces), ?_, ?_, ?_⟩
  · rw [predicates, List.flatten_cons, List.flatten_append, ← List.flatMap_def, List.append_assoc]
    rfl
  · intro piece among
    rcases List.mem_cons.mp among with rfl | among
    · exact ⟨_, mem_parts_iff.mpr (.inl rfl), _, query_ofOwner source⟩
    · rcases List.mem_append.mp among with ofRule | ofToggle
      · obtain ⟨rule, inside, rfl⟩ := List.mem_map.mp ofRule
        have alone := query_ofRule source (free rule inside)
        rw [report, List.flatMap_singleton] at alone
        exact ⟨_, mem_parts_iff.mpr (.inr (.inl ⟨rule, inside, rfl⟩)), _, alone⟩
      · obtain ⟨toggle, inside, alone⟩ := asked piece ofToggle
        exact ⟨_, mem_parts_iff.mpr (.inr (.inr ⟨toggle, inside, rfl⟩)), _,
          query_ofToggle source alone⟩
  · intro part among
    rw [predicates]
    rcases mem_parts_iff.mp among with rfl | ⟨rule, inside, rfl⟩ | ⟨toggle, inside, rfl⟩
    · exact ⟨_, query_ofOwner source, fun p hp ↦ by simp [hp]⟩
    · refine ⟨_, query_ofRule source (free rule inside), fun p hp ↦ ?_⟩
      have listed : p ∈ (report source.types source.now
          (Forest.rules source.groups)).predicates :=
        List.mem_flatMap.mpr ⟨rule, inside, by simpa [report] using hp⟩
      simp [listed]
    · obtain ⟨piece, alone, subset⟩ := given toggle inside
      exact ⟨_, query_ofToggle source alone, fun p hp ↦ List.mem_append_right _ (subset hp)⟩

/-- A call satisfies a query exactly if it satisfies each of its parts alone. -/
theorem admits_iff_parts (compiled : query source = .ok compilation) :
    source.Admits engine call ↔ ∀ part ∈ source.parts, part.Admits engine call := by
  obtain ⟨pieces, predicates, ofPart, inside⟩ := exists_pieces compiled
  rw [admits_iff compiled]
  constructor
  · intro whole part among
    obtain ⟨alone, compiled, subset⟩ := inside part among
    exact ⟨alone, compiled, fun p hp ↦ whole p (subset hp)⟩
  · intro each
    rw [predicates, Engine.satisfies_flatten]
    intro piece among
    obtain ⟨part, known, dropped, compiled⟩ := ofPart piece among
    exact (admits_iff compiled).mp (each part known)

section Change

variable {groups : Forest} {chosen found : List Call}

theorem Admits.of_subset (compiled : query source = .ok compilation)
    (more : Forest.rules source.groups ⊆ Forest.rules groups)
    (admitted : ({ source with groups } : QuerySource).Admits engine call) :
    source.Admits engine call := by
  obtain ⟨_, compiled', -⟩ := id admitted
  rw [admits_iff_parts compiled'] at admitted
  rw [admits_iff_parts compiled]
  intro part among
  refine admitted part (mem_parts_iff.mpr ?_)
  rcases mem_parts_iff.mp among with owner | ⟨rule, inside, same⟩ | toggle
  · exact .inl owner
  · exact .inr (.inl ⟨rule, more inside, same⟩)
  · exact .inr (.inr toggle)

theorem Finds.fewer (more : Forest.rules source.groups ⊆ Forest.rules groups)
    (h : source.Finds engine calls chosen)
    (h' : ({ source with groups } : QuerySource).Finds engine calls found) :
    found.Sublist chosen := by
  obtain ⟨compilation, compiled, selected⟩ := h
  obtain ⟨changed, compiled', selected'⟩ := h'
  refine CallTable.select_fewer (fun call admitted ↦ ?_) selected selected'
  rw [← admits_iff compiled'] at admitted
  exact (admits_iff compiled).mp (admitted.of_subset compiled more)

theorem Finds.reordered (perm : (Forest.rules source.groups).Perm (Forest.rules groups))
    (h : source.Finds engine calls chosen)
    (h' : ({ source with groups } : QuerySource).Finds engine calls found) :
    found = chosen := by
  have back : chosen.Sublist found := Finds.fewer perm.symm.subset h' h
  exact (Finds.fewer perm.subset h h').antisymm back

end Change

end QuerySource

end CallSearch
