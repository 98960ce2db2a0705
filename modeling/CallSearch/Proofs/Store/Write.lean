import Mathlib.Data.List.Forall2
import Mathlib.Data.List.SplitBy
import CallSearch.Proofs.Store.Insert
import CallSearch.Proofs.Store.Session
import CallSearch.Store.Tables

namespace CallSearch

/-- The call is what a draft says. Its id is the one that the draft gives, if it gives one. -/
def Draft.Makes (now : Timestamp) (draft : Draft) (call : Call) : Prop :=
  ∃ row agent, Row.ofDraft draft = .ok row ∧ row.agent = some agent ∧
    (∀ id, row.id = .given id → call.id = id) ∧ call = row.toCall now call.id agent

/-- Calls that are made of drafts and have ids of their own, which none of the others has. -/
structure Appends (now : Timestamp) (drafts : List Draft) (calls added : List Call) : Prop where
  made : List.Forall₂ (Draft.Makes now) drafts added
  distinct : UniqueIds added
  new : ∀ call ∈ added, call.id ∉ calls.map Call.id

/-- A table has grown by the calls of some drafts. A table that is lost does not grow. -/
def Grows (now : Timestamp) : CallTable → List Draft → CallTable → Prop
  | none, drafts, after => drafts = [] ∧ after = none
  | some calls, drafts, after =>
    ∃ added, after = some (calls ++ added) ∧ Appends now drafts calls added

section Grows

variable {now : Timestamp} {calls after added added' : List Call} {drafts drafts' : List Draft}
variable {table next last : CallTable}

theorem Appends.nil (now : Timestamp) (calls : List Call) : Appends now [] calls [] :=
  ⟨.nil, List.nodup_nil, by simp⟩

theorem Appends.append (h : Appends now drafts calls added)
    (h' : Appends now drafts' (calls ++ added) added') :
    Appends now (drafts ++ drafts') calls (added ++ added') := by
  have apart : ∀ call ∈ added', call.id ∉ calls.map Call.id ∧ call.id ∉ added.map Call.id := by
    intro call among
    have new := h'.new call among
    rwa [List.map_append, List.mem_append, not_or] at new
  refine ⟨List.rel_append h.made h'.made, ?_, ?_⟩
  · rw [UniqueIds, List.map_append]
    refine List.nodup_append.mpr ⟨h.distinct, h'.distinct, ?_⟩
    rintro id old _ new rfl
    obtain ⟨call, among, rfl⟩ := List.mem_map.mp new
    exact (apart call among).2 old
  · intro call among
    rcases List.mem_append.mp among with first | second
    · exact h.new call first
    · exact (apart call second).1

theorem Grows.nothing (now : Timestamp) (table : CallTable) : Grows now table [] table := by
  cases table with
  | none => exact ⟨rfl, rfl⟩
  | some calls => exact ⟨[], by rw [List.append_nil], Appends.nil now calls⟩

theorem Grows.trans (h : Grows now table drafts next) (h' : Grows now next drafts' last) :
    Grows now table (drafts ++ drafts') last := by
  cases table with
  | none =>
    obtain ⟨rfl, rfl⟩ := h
    exact h'
  | some calls =>
    obtain ⟨added, rfl, appends⟩ := h
    obtain ⟨added', rfl, appends'⟩ := h'
    exact ⟨added ++ added', by rw [List.append_assoc], appends.append appends'⟩

theorem placeRow_grows {draft : Draft}
    (placed : (do placeRow now calls (← Row.ofDraft draft)) = .ok after) :
    Grows now (some calls) [draft] (some after) := by
  obtain ⟨row, made, placed⟩ := ok_of_bind placed
  obtain ⟨id, agent, owned, given, new, rfl⟩ := placeRow_ok placed
  refine ⟨_, rfl, .cons ⟨row, agent, made, owned, given, rfl⟩ .nil, List.nodup_singleton _, ?_⟩
  intro call among
  rw [List.mem_singleton.mp among]
  exact new

theorem placeRows_grows
    (h : drafts.foldlM (fun calls draft ↦ do placeRow now calls (← Row.ofDraft draft)) calls =
      .ok after) : Grows now (some calls) drafts (some after) := by
  have grown := foldlM_composes (fun draft ↦ [draft])
    (R := fun calls drafts after ↦ Grows now (some calls) drafts (some after))
    (fun calls ↦ Grows.nothing now (some calls)) (fun _ _ _ _ _ ↦ Grows.trans)
    (fun _ _ _ ↦ placeRow_grows) h
  rwa [List.flatMap_singleton'] at grown

theorem placeDrafts_grows (h : placeDrafts now table drafts = .ok next) :
    Grows now table drafts next := by
  cases readable : drafts.all Draft.isReadable with
  | false =>
    simp only [placeDrafts, readable] at h
    cases h
  | true =>
    cases table with
    | none =>
      simp only [placeDrafts, readable] at h
      cases h
    | some calls =>
      simp only [placeDrafts, readable] at h
      -- Whether the drafts are made rows one by one or all at once, the same rows are put in.
      cases given : drafts.any (·.gives .id) with
      | true =>
        simp only [given, if_true] at h
        obtain ⟨placed, steps, last⟩ := ok_of_bind h
        cases last
        exact placeRows_grows steps
      | false =>
        simp only [given] at h
        obtain ⟨rows, made, h⟩ := ok_of_bind h
        obtain ⟨placed, steps, last⟩ := ok_of_bind h
        cases last
        exact placeRows_grows (foldlM_of_mapM made calls ▸ steps)

theorem insertRecords_grows {records : List Json} (h : insertRecords now table records = .ok next) :
    ∃ drafts, records.mapM Draft.ofRecord = .ok drafts ∧ Grows now table drafts next := by
  obtain ⟨drafts, read, steps⟩ := ok_of_bind h
  have grown := foldlM_composes id (Grows.nothing now) (fun _ _ _ _ _ ↦ Grows.trans)
    (fun _ _ _ ↦ placeDrafts_grows) steps
  rw [List.flatMap_id, List.flatten_splitBy] at grown
  exact ⟨drafts, read, grown⟩

end Grows

theorem forall₂_through {α β γ : Type} {R : α → β → Prop} {S : β → γ → Prop} {as : List α}
    {bs : List β} {cs : List γ} (h : List.Forall₂ R as bs) (h' : List.Forall₂ S bs cs) :
    List.Forall₂ (fun a c ↦ ∃ b, R a b ∧ S b c) as cs := by
  induction h generalizing cs with
  | nil =>
    cases h'
    exact .nil
  | cons first _ ih =>
    cases h' with
    | cons first' later' => exact .cons ⟨_, first, first'⟩ (ih later')

/-- The call is what a record says. -/
def Call.Records (now : Timestamp) (record : Json) (call : Call) : Prop :=
  ∃ draft, Draft.ofRecord record = .ok draft ∧ draft.Makes now call

/-- Records that can be stored are all there afterwards, in their order behind the calls that were
there, under ids that are all different and new. -/
theorem insertRecords_added {now : Timestamp} {table after : CallTable} {records : List Json}
    (h : insertRecords now table records = .ok after) :
    ∃ added, after = table.map (· ++ added) ∧ List.Forall₂ (Call.Records now) records added ∧
      UniqueIds added ∧ ∀ call ∈ added, call.id ∉ (table.getD []).map Call.id := by
  obtain ⟨drafts, read, grown⟩ := insertRecords_grows h
  have each := forall₂_of_mapM read
  cases table with
  | none =>
    obtain ⟨rfl, rfl⟩ := grown
    cases each
    exact ⟨[], rfl, .nil, List.nodup_nil, by simp⟩
  | some calls =>
    obtain ⟨added, rfl, appends⟩ := grown
    refine ⟨added, rfl, ?_, appends.distinct, appends.new⟩
    exact forall₂_through each appends.made

end CallSearch
