import CallSearch.Proofs.Identity
import CallSearch.Proofs.View.SavedView

namespace CallSearch

namespace ViewRecord

variable {record old : ViewRecord} {view : SavedView} {now : Timestamp}
variable {forest : Forest} {columns former : VisibleColumns}

/-- The record is read as the view, and no fresh id is drawn for it. -/
def ReadAs (record : ViewRecord) (view : SavedView) : Prop :=
  ∀ supply, record.toView supply = (.value view, supply)

structure Holds (record : ViewRecord) (forest : Forest) (columns : VisibleColumns) : Prop where
  filters : record.filters = .arr (forest.map Group.toJson)
  columns : record.columns = columns.toJson

def viewOf (record : ViewRecord) (forest : Forest) (columns : VisibleColumns) : SavedView where
  id := some record.id
  agent := record.agent
  name := record.name
  filters := forest
  columns := columns
  createdAt := some ⟨record.createdAt, none⟩
  updatedAt := some ⟨record.updatedAt, none⟩

theorem Holds.readAs (h : record.Holds forest columns) :
    record.ReadAs (record.viewOf forest columns) := fun supply ↦ by
  rw [toView, h.filters, h.columns, Group.readAll_toJson, VisibleColumns.read_toJson]
  rfl

theorem write_holds (record : ViewRecord) (view : SavedView) (now : Timestamp) :
    (record.write view now).Holds view.filters view.columns.finite :=
  ⟨rfl, view.columns.finite_toJson⟩

theorem create_holds (id : String) (view : SavedView) (now : Timestamp) :
    (create id view now).Holds view.filters view.columns.finite :=
  write_holds _ view now

theorem Holds.storedAfter {changed : ViewRecord} (new : changed.Holds forest columns)
    {forest' : Forest} (held : old.Holds forest' former) :
    (old.storedAfter changed).Holds forest (columns.replacing former) := by
  have filters : (old.storedAfter changed).filters =
      if changed.filters.same old.filters then old.filters else changed.filters := rfl
  have sections : (old.storedAfter changed).columns =
      if changed.columns.same old.columns then old.columns else changed.columns := rfl
  refine ⟨?_, ?_⟩
  · rw [filters]
    split_ifs with same
    · rw [new.filters, held.filters] at same
      rw [held.filters, Forest.eq_of_same same]
    · exact new.filters
  · rw [sections, new.columns, held.columns, VisibleColumns.replacing]
    split_ifs <;> rfl

/-- The records of a table: their ids are different and were drawn from the supply, and all hold
views. -/
structure Sound (supply : IdSupply) (records : List ViewRecord) : Prop where
  distinct : (records.map ViewRecord.id).Nodup
  drawn : ∀ record ∈ records, ∃ n < supply.next, record.id = IdSupply.idOf n
  held : ∀ record ∈ records, ∃ forest columns, record.Holds forest columns

/-- What a save can do: create a record under a fresh id, find nothing to change, or change the
record of the view. It comes with what is answered, the records and the supply after it. -/
inductive Saves (records : List ViewRecord) (supply : IdSupply) (view : SavedView)
    (now : Timestamp) : Option ViewRecord → List ViewRecord → IdSupply → Prop
  | created {record : ViewRecord} (new : view.id = none)
      (same : record = create (IdSupply.idOf supply.next) view now) :
      Saves records supply view now (some record) (records ++ [record]) ⟨supply.next + 1⟩
  | missing {id : String} (given : view.id = some id)
      (absent : ∀ record ∈ records, record.id = id → record.agent ≠ view.agent) :
      Saves records supply view now none records supply
  | changed {id : String} {old stored : ViewRecord} (given : view.id = some id)
      (present : old ∈ records) (named : old.id = id) (owned : old.agent = view.agent)
      (kept : stored = old.storedAfter (old.write view now)) :
      Saves records supply view now (some (old.write view now))
        (records.map fun record ↦ if record.id == id then stored else record) supply

theorem saves_save (records : List ViewRecord) (view : SavedView) (now : Timestamp)
    (supply : IdSupply) : ∃ answer after supply', Saves records supply view now answer after supply' ∧
      ViewTable.save (some records) view now supply = (.ok (answer, some after), supply') := by
  rcases given : view.id with _ | id
  · refine ⟨_, _, _, .created given rfl, ?_⟩
    rw [ViewTable.save, given]
    rfl
  · rcases found : records.find? (fun r ↦ r.id == id && r.agent == view.agent) with _ | old
    · refine ⟨_, _, _, .missing given fun record present named ↦ ?_, ?_⟩
      · simpa [named] using List.find?_eq_none.mp found record present
      rw [ViewTable.save, given]
      simp only [ViewTable.records, Option.elim_some, Except.map, found]
      rfl
    · have fits := List.find?_some found
      rw [Bool.and_eq_true, beq_iff_eq, beq_iff_eq] at fits
      refine ⟨_, _, _, .changed given (List.mem_of_find?_eq_some found) fits.1 fits.2 rfl, ?_⟩
      rw [ViewTable.save, given]
      simp only [ViewTable.records, Option.elim_some, Except.map, found]
      rfl

section Saves

variable {records after : List ViewRecord} {supply supply' : IdSupply} {answer : Option ViewRecord}

theorem Sound.fresh (sound : Sound supply records) :
    ∀ record ∈ records, record.id ≠ IdSupply.idOf supply.next := fun record present same ↦ by
  obtain ⟨n, below, drawn⟩ := sound.drawn record present
  have : n = supply.next := IdSupply.idOf_injective (drawn.symm.trans same)
  omega

theorem Sound.mono (sound : Sound supply records) (later : supply.next ≤ supply'.next) :
    Sound supply' records := by
  refine { sound with drawn := fun record present ↦ ?_ }
  obtain ⟨n, below, drawn⟩ := sound.drawn record present
  exact ⟨n, by omega, drawn⟩

theorem Sound.filter (sound : Sound supply records) (kept : ViewRecord → Bool) :
    Sound supply (records.filter kept) where
  distinct := (List.filter_sublist.map _).nodup sound.distinct
  drawn record present := sound.drawn record (List.mem_filter.mp present).1
  held record present := sound.held record (List.mem_filter.mp present).1

theorem Sound.only (sound : Sound supply records) (present : record ∈ records) :
    records.filter (·.id == record.id) = [record] := by
  have named : record ∈ records.filter (·.id == record.id) :=
    List.mem_filter.mpr ⟨present, beq_self_eq_true _⟩
  have alike : ∀ other ∈ records.filter (·.id == record.id), other.id = record.id :=
    fun other found ↦ beq_iff_eq.mp (List.mem_filter.mp found).2
  have distinct := (sound.filter (·.id == record.id)).distinct
  generalize records.filter (·.id == record.id) = found at named alike distinct
  match found with
  | [] => exact absurd named List.not_mem_nil
  | [other] => rw [List.mem_singleton.mp named]
  | first :: second :: rest =>
    have : first.id = second.id := by rw [alike first (by simp), alike second (by simp)]
    simp [this] at distinct

theorem Sound.append (sound : Sound supply records) (later : supply.next < supply'.next)
    (named : record.id = IdSupply.idOf supply.next) (held : record.Holds forest columns) :
    Sound supply' (records ++ [record]) where
  distinct := by
    rw [List.map_append, List.map_singleton]
    refine List.nodup_append.mpr
      ⟨sound.distinct, List.pairwise_singleton _ _, fun id used new last ↦ ?_⟩
    obtain ⟨other, present, rfl⟩ := List.mem_map.mp used
    rw [List.mem_singleton.mp last, named]
    exact sound.fresh other present
  drawn other present := by
    rcases List.mem_append.mp present with present | last
    · exact (sound.mono later.le).drawn other present
    · rw [List.mem_singleton.mp last]
      exact ⟨supply.next, later, named⟩
  held other present := by
    rcases List.mem_append.mp present with present | last
    · exact sound.held other present
    · rw [List.mem_singleton.mp last]
      exact ⟨forest, columns, held⟩

theorem replace_id {id : String} {stored : ViewRecord} (named : stored.id = id)
    (record : ViewRecord) : (if record.id == id then stored else record).id = record.id := by
  split_ifs with same
  · rw [named, beq_iff_eq.mp same]
  · rfl

theorem Sound.replace {id : String} {stored : ViewRecord} (sound : Sound supply records)
    (named : stored.id = id) (held : stored.Holds forest columns) :
    Sound supply (records.map fun record ↦ if record.id == id then stored else record) := by
  refine ⟨?_, fun record changed ↦ ?_, fun record changed ↦ ?_⟩
  · rw [List.map_map]
    simpa only [Function.comp_def, replace_id named] using sound.distinct
  · obtain ⟨before, present, rfl⟩ := List.mem_map.mp changed
    rw [replace_id named]
    exact sound.drawn before present
  · obtain ⟨before, present, rfl⟩ := List.mem_map.mp changed
    split_ifs
    · exact ⟨forest, columns, held⟩
    · exact sound.held before present

theorem replace_frame {id other : String} {stored : ViewRecord} (named : stored.id = id)
    (differs : id ≠ other) (records : List ViewRecord) :
    (records.map fun record ↦ if record.id == id then stored else record).filter (·.id == other) =
      records.filter (·.id == other) := by
  have untouched : ∀ record ∈ records.filter (·.id == other),
      (if record.id == id then stored else record) = record := fun record found ↦ by
    have : record.id = other := beq_iff_eq.mp (List.mem_filter.mp found).2
    rw [if_neg (by simpa [this] using differs.symm)]
  rw [List.filter_map]
  simp only [Function.comp_def, replace_id named]
  rw [List.map_congr_left untouched, List.map_id']

theorem Saves.sound (saves : Saves records supply view now answer after supply')
    (sound : Sound supply records) : Sound supply' after ∧ supply.next ≤ supply'.next := by
  cases saves with
  | @created record new same =>
    have held : record.Holds view.filters view.columns.finite := same ▸ create_holds _ view now
    exact ⟨sound.append (Nat.lt_succ_self _) (by rw [same]; rfl) held, Nat.le_succ _⟩
  | missing => exact ⟨sound, le_rfl⟩
  | @changed id old stored given present named owned kept =>
    obtain ⟨forest, columns, held⟩ := sound.held old present
    have stores := (write_holds old view now).storedAfter held
    exact ⟨sound.replace (by rw [kept]; exact named) (kept ▸ stores), le_rfl⟩

theorem Saves.frame (saves : Saves records supply view now answer after supply') {id : String}
    (other : view.id ≠ some id) (drawn : id ≠ IdSupply.idOf supply.next) :
    after.filter (·.id == id) = records.filter (·.id == id) := by
  cases saves with
  | @created record new same =>
    have : record.id ≠ id := by
      rw [same]
      exact fun named ↦ drawn named.symm
    simp [List.filter_append, this]
  | missing => rfl
  | @changed own old stored given present named owned kept =>
    have storedId : stored.id = own := by
      rw [kept]
      exact named
    exact replace_frame storedId (fun same ↦ other (by rw [given, same])) records

/-- What an answered save leaves in the table. The columns that are stored in place of former ones
of the same value are the former ones. -/
theorem Saves.stored (saves : Saves records supply view now (some record) after supply')
    (sound : Sound supply records) :
    ∃ stored ∈ after, ∃ kept, record.Holds view.filters view.columns.finite ∧
      stored.Holds view.filters kept ∧
      stored.viewOf view.filters kept = record.viewOf view.filters kept ∧
      record.agent = view.agent ∧
      match view.id with
      | none => kept = view.columns.finite
      | some id => ∃ old ∈ records, ∃ forest former, old.id = id ∧ old.Holds forest former ∧
          kept = view.columns.finite.replacing former := by
  cases saves with
  | created new same =>
    have held : record.Holds view.filters view.columns.finite := same ▸ create_holds _ view now
    rw [new]
    exact ⟨record, by simp, _, held, held, rfl, by rw [same]; rfl, rfl⟩
  | @changed id old stored given present named owned kept =>
    obtain ⟨forest, former, held⟩ := sound.held old present
    have written := write_holds old view now
    have replaced : stored ∈ records.map fun record ↦ if record.id == id then stored else record :=
      List.mem_map.mpr ⟨old, present, by simp [named]⟩
    rw [given]
    exact ⟨stored, replaced, _, written, kept ▸ written.storedAfter held, by rw [kept]; rfl, owned,
      old, present, forest, former, named, held, rfl⟩

end Saves

end ViewRecord

end CallSearch
