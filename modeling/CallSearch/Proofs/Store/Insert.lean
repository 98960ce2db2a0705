import Mathlib.Data.List.Nodup
import CallSearch.Proofs.Number
import CallSearch.Proofs.Outcome
import CallSearch.Store.Insert

namespace CallSearch

/-- Whether each call has an id of its own. -/
def UniqueIds (calls : List Call) : Prop := (calls.map Call.id).Nodup

namespace UniqueIds

variable {calls others : List Call}

theorem sublist (h : UniqueIds calls) (sub : others.Sublist calls) : UniqueIds others :=
  List.Nodup.sublist (sub.map Call.id) h

theorem eq_of_id_eq (h : UniqueIds calls) {a b : Call} (ha : a ∈ calls) (hb : b ∈ calls)
    (same : a.id = b.id) : a = b :=
  List.inj_on_of_nodup_map h ha hb same

theorem append {call : Call} (h : UniqueIds calls) (fresh : call.id ∉ calls.map Call.id) :
    UniqueIds (calls ++ [call]) := by
  rw [UniqueIds, List.map_append, List.nodup_append]
  refine ⟨h, List.nodup_singleton _, ?_⟩
  intro n hn m hm
  rw [List.map_singleton, List.mem_singleton] at hm
  rintro rfl
  exact fresh (hm ▸ hn)

end UniqueIds

theorem nextId_not_mem (calls : List Call) : nextId calls ∉ calls.map Call.id := by
  intro h
  rw [nextId] at h
  cases largest : (calls.map Call.id).max? with
  | none => simp_all
  | some m =>
    have hle := (List.max?_eq_some_iff.mp largest).2 _ h
    simp only [largest] at hle
    omega

section PlaceRow

variable {now : Timestamp} {calls after : List Call} {row : Row} {call : Call}

theorem placeRow_ok (h : placeRow now calls row = .ok after) :
    ∃ id agent, row.agent = some agent ∧ (∀ n, row.id = .given n → id = n) ∧
      id ∉ calls.map Call.id ∧ after = calls ++ [row.toCall now id agent] := by
  unfold placeRow at h
  split at h
  · next agent next owned =>
    cases h
    exact ⟨_, agent, owned, fun n given ↦ by simp [next] at given, nextId_not_mem calls, rfl⟩
  · next id agent given owned =>
    split at h
    · cases h
    · next free =>
      cases h
      refine ⟨id, agent, owned, fun n given' ↦ ?_, fun taken ↦ free ?_, rfl⟩
      · exact RowId.given.inj (given.symm.trans given')
      · obtain ⟨call, hcall, same⟩ := List.mem_map.mp taken
        exact List.any_eq_true.mpr ⟨call, hcall, beq_iff_eq.mpr same⟩
  · cases h

theorem placeRow_ids (ids : UniqueIds calls) (h : placeRow now calls row = .ok after) :
    UniqueIds after := by
  obtain ⟨id, agent, -, -, free, rfl⟩ := placeRow_ok h
  exact ids.append free

theorem mem_of_placeRow (h : placeRow now calls row = .ok after) (hcall : call ∈ after) :
    call ∈ calls ∨ ∃ id agent, call = row.toCall now id agent := by
  obtain ⟨id, agent, -, -, -, rfl⟩ := placeRow_ok h
  exact (List.mem_append.mp hcall).imp_right fun last ↦ ⟨id, agent, List.mem_singleton.mp last⟩

end PlaceRow

section Keeps

variable {Good : List Call → Prop}
  (keeps : ∀ now calls row after, Good calls → placeRow now calls row = .ok after → Good after)

include keeps

theorem placeDrafts_keeps {now : Timestamp} {table after : CallTable} {drafts : List Draft}
    (good : Good (table.getD [])) (h : placeDrafts now table drafts = .ok after) :
    Good (after.getD []) := by
  cases readable : drafts.all Draft.isReadable with
  | false =>
    simp only [placeDrafts, readable] at h
    cases h
  | true =>
    cases table with
    | none =>
      simp only [placeDrafts, readable] at h
      cases h
    | some calls =>
      simp only [placeDrafts, readable] at h
      -- Either each draft is made a row and put in at once, or all are made rows before.
      cases given : drafts.any (·.gives .id) with
      | true =>
        simp only [given, if_true] at h
        obtain ⟨placed, steps, last⟩ := ok_of_bind h
        cases last
        change Good placed
        refine foldlM_keeps (fun calls draft after good step ↦ ?_) good steps
        obtain ⟨row, -, place⟩ := ok_of_bind step
        exact keeps now calls row after good place
      | false =>
        simp only [given] at h
        obtain ⟨rows, -, h⟩ := ok_of_bind h
        obtain ⟨placed, steps, last⟩ := ok_of_bind h
        cases last
        change Good placed
        exact foldlM_keeps (keeps now) good steps

theorem insertRecords_keeps {now : Timestamp} {table after : CallTable} {records : List Json}
    (good : Good (table.getD [])) (h : insertRecords now table records = .ok after) :
    Good (after.getD []) := by
  obtain ⟨drafts, -, steps⟩ := ok_of_bind h
  exact foldlM_keeps (fun _ _ _ ↦ placeDrafts_keeps keeps) good steps

end Keeps

namespace CallTable

/-- The tables to which a store can come. -/
inductive Stored : CallTable → Prop
  | empty : Stored (some [])
  | insert {now : Timestamp} {table after : CallTable} {records : List Json} :
      Stored table → insertRecords now table records = .ok after → Stored after
  | lose {table : CallTable} : Stored table → Stored none

/-- What an empty table has and each row that is put in keeps, all tables of a store have. -/
theorem Stored.keeps {table : CallTable} (h : table.Stored) (Good : List Call → Prop)
    (start : Good [])
    (keeps : ∀ now calls row after, Good calls → placeRow now calls row = .ok after → Good after) :
    Good (table.getD []) := by
  induction h with
  | empty | lose => exact start
  | insert _ inserted ih => exact insertRecords_keeps keeps ih inserted

theorem Stored.uniqueIds {table : CallTable} (h : table.Stored) : UniqueIds (table.getD []) :=
  h.keeps UniqueIds List.nodup_nil fun _ _ _ _ ↦ placeRow_ids

end CallTable

theorem Draft.isNan_storedDouble {x y : Double} (h : storedDouble x = some y) : y.isNan = false := by
  unfold storedDouble at h
  split at h
  · cases h
  · split at h
    · cases h
      rfl
    · next number _ =>
      cases h
      exact Bool.not_eq_true _ ▸ number

theorem Draft.isNan_readNumber? {document : Json} {x : Double}
    (h : readNumber? document = some (some x)) : x.isNan = false := by
  cases document with
  | null | arr | obj => cases h
  | bool b =>
    cases h
    exact Double.isNan_ofInt _
  | int n =>
    obtain ⟨y, found, same⟩ := Option.map_eq_some_iff.mp h
    cases same
    exact Double.ofInt_of_ofInt? found ▸ Double.isNan_ofInt n
  | real y => exact isNan_storedDouble (Option.some.inj h)
  | str s =>
    obtain ⟨y, -, same⟩ := Option.map_eq_some_iff.mp h
    exact isNan_storedDouble same

def Call.HasNumbers (call : Call) : Prop :=
  ∀ column x, call.numbers column = some x → x.isNan = false

theorem CallTable.Stored.hasNumbers {table : CallTable} (h : table.Stored) :
    ∀ call ∈ table.getD [], call.HasNumbers := by
  refine h.keeps (fun calls ↦ ∀ call ∈ calls, call.HasNumbers) (by simp) ?_
  intro now calls row after good placed call hcall
  rcases mem_of_placeRow placed hcall with old | ⟨id, agent, rfl⟩
  · exact good call old
  · intro column x hx
    exact Draft.isNan_readNumber? (Option.join_eq_some_iff.mp hx)

end CallSearch
