import CallSearch.Proofs.Store.Session
import CallSearch.Proofs.View.Table
import CallSearch.Store.Tables

namespace CallSearch

namespace Session

def saveView (s : Session Tables) (view : SavedView) (now : Timestamp) :
    Fresh (Except ViewError (Option ViewRecord) × Session Tables) := do
  return s.settle (← s.current.saveView view now)

def getView (s : Session Tables) (id : String) :
    Except ViewError (Option ViewRecord) × Session Tables :=
  s.ask fun db ↦ db.views.find id

def listViews (s : Session Tables) (agent : String) :
    Except ViewError (List ViewRecord) × Session Tables :=
  s.ask fun db ↦ db.views.list agent

end Session

/-- What is done in a session with saved views. An id may also be drawn for something else. -/
inductive ViewAction where
  | save (view : SavedView) (now : Timestamp)
  | get (id : String)
  | list (agent : String)
  | delete (id : String)
  | draw
  | commit
  | rollback

namespace ViewAction

def perform (s : Session Tables) : ViewAction → Fresh (Session Tables)
  | save view now => return (← s.saveView view now).2
  | get id => return (s.getView id).2
  | list agent => return (s.listViews agent).2
  | delete id => return (s.run fun db ↦ db.deleteView id).2
  | draw => do
    let _ ← freshId
    return s
  | commit => return s.commit
  | rollback => return s.rollback

def run (s : Session Tables) (actions : List ViewAction) : Fresh (Session Tables) :=
  actions.foldlM perform s

/-- The action neither saves nor deletes the view of an id, and takes nothing back. -/
def Spares (id : String) : ViewAction → Prop
  | save view _ => view.id ≠ some id
  | delete deleted => deleted ≠ id
  | rollback => False
  | _ => True

variable {s s' : Session Tables} {supply supply' : IdSupply} {records : List ViewRecord}
variable {action : ViewAction} {actions : List ViewAction} {id : String}

/-- There is a table of views, and its records are sound. -/
def Kept (supply : IdSupply) (db : Tables) : Prop :=
  ∃ records, db.views = some records ∧ ViewRecord.Sound supply records

theorem Kept.mono {db : Tables} (kept : Kept supply db) (later : supply.next ≤ supply'.next) :
    Kept supply' db := by
  obtain ⟨records, held, sound⟩ := kept
  exact ⟨records, held, sound.mono later⟩

theorem saveView_saves (held : s.current.views = some records) (view : SavedView)
    (now : Timestamp) (supply : IdSupply) : ∃ answer after supply',
      ViewRecord.Saves records supply view now answer after supply' ∧
      s.saveView view now supply =
        ((.ok answer, s.proceed { s.current with views := some after }), supply') := by
  obtain ⟨answer, after, supply', saves, saved⟩ :=
    ViewRecord.saves_save records view now supply
  refine ⟨answer, after, supply', saves, ?_⟩
  rw [Session.saveView, Tables.saveView, held]
  exact congrArg (fun outcome : Except ViewError (Option ViewRecord × ViewTable) × IdSupply ↦
    (s.settle (outcome.1.map fun found ↦ (found.1, { s.current with views := found.2 })),
      outcome.2)) saved

theorem getView_eq (held : s.current.views = some records) (id : String) :
    s.getView id = (.ok (records.find? (·.id == id)), s.proceed s.current) := by
  rw [Session.getView, Session.ask, Session.run, held]
  rfl

theorem listViews_eq (held : s.current.views = some records) (agent : String) :
    s.listViews agent =
      (.ok ((records.filter (·.agent == agent)).reverse.mergeSort ViewRecord.listedBefore),
        s.proceed s.current) := by
  rw [Session.listViews, Session.ask, Session.run, held]
  rfl

theorem saveView_kept (kept : s.Both (Kept supply)) (view : SavedView) (now : Timestamp) :
    ∃ records answer after s' supply', s.current.views = some records ∧
      ViewRecord.Sound supply records ∧
      ViewRecord.Saves records supply view now answer after supply' ∧
      s.saveView view now supply = ((.ok answer, s'), supply') ∧ s'.current.views = some after ∧
      s'.Both (Kept supply') ∧ supply.next ≤ supply'.next := by
  obtain ⟨records, held, sound⟩ := kept.current
  obtain ⟨answer, after, supply', saves, saved⟩ := saveView_saves held view now supply
  obtain ⟨sound', later⟩ := saves.sound sound
  have both : s.Both (Kept supply') := ⟨kept.saved.mono later, kept.current.mono later⟩
  refine ⟨records, answer, after, _, supply', held, sound, saves, saved, ?_,
    both.proceed ⟨after, rfl, sound'⟩, later⟩
  rw [Session.proceed_current]

theorem perform_save {view : SavedView} {now : Timestamp}
    {answer : Except ViewError (Option ViewRecord)}
    (saved : s.saveView view now supply = ((answer, s'), supply')) :
    perform s (save view now) supply = (s', supply') := by
  have performed : perform s (save view now) supply =
    ((s.saveView view now supply).1.2, (s.saveView view now supply).2) := rfl
  rw [performed, saved]

theorem perform_get (held : s.current.views = some records) (id : String) (supply : IdSupply) :
    perform s (get id) supply = (s.proceed s.current, supply) := by
  rw [perform, getView_eq held]
  rfl

theorem perform_list (held : s.current.views = some records) (agent : String)
    (supply : IdSupply) : perform s (list agent) supply = (s.proceed s.current, supply) := by
  rw [perform, listViews_eq held]
  rfl

theorem perform_delete (held : s.current.views = some records) (id : String) (supply : IdSupply) :
    perform s (delete id) supply =
      (s.proceed { s.current with views := some (records.filter (·.id != id)) }, supply) := by
  rw [perform, Session.run, Tables.deleteView, held]
  rfl

/-- An action keeps the tables of views sound, and no id is given back to the supply. -/
theorem perform_kept (kept : s.Both (Kept supply)) (action : ViewAction) :
    (perform s action supply).1.Both (Kept (perform s action supply).2) ∧
      supply.next ≤ (perform s action supply).2.next := by
  obtain ⟨records, held, sound⟩ := kept.current
  cases action with
  | save view now =>
    obtain ⟨_, _, _, s', supply', -, -, -, saved, -, kept', later⟩ := saveView_kept kept view now
    rw [perform_save saved]
    exact ⟨kept', later⟩
  | get id =>
    rw [perform_get held]
    exact ⟨kept.proceed kept.current, le_rfl⟩
  | list agent =>
    rw [perform_list held]
    exact ⟨kept.proceed kept.current, le_rfl⟩
  | delete id =>
    rw [perform_delete held]
    exact ⟨kept.proceed ⟨_, rfl, sound.filter _⟩, le_rfl⟩
  | draw =>
    have later : supply.next ≤ supply.next + 1 := Nat.le_succ _
    exact ⟨⟨kept.saved.mono later, kept.current.mono later⟩, later⟩
  | commit => exact ⟨kept.commit, le_rfl⟩
  | rollback => exact ⟨kept.rollback, le_rfl⟩

theorem run_cons (s : Session Tables) (action : ViewAction) (actions : List ViewAction)
    (supply : IdSupply) : run s (action :: actions) supply =
      run (perform s action supply).1 actions (perform s action supply).2 := rfl

theorem run_kept (kept : s.Both (Kept supply)) (actions : List ViewAction) :
    (run s actions supply).1.Both (Kept (run s actions supply).2) := by
  induction actions generalizing s supply with
  | nil => exact kept
  | cons action rest ih => exact ih (perform_kept kept action).1

theorem start_kept (heldOpen : Bool) (supply : IdSupply) :
    (Session.start ({} : Tables) heldOpen).Both (Kept supply) :=
  have empty : Kept supply {} := ⟨[], rfl, ⟨List.nodup_nil, by simp, by simp⟩⟩
  ⟨empty, empty⟩

def recordsOf (id : String) (db : Tables) : List ViewRecord :=
  (db.views.getD []).filter (·.id == id)

theorem perform_frame (kept : s.Both (Kept supply)) {n : ℕ} (drawn : n < supply.next)
    (spares : action.Spares (IdSupply.idOf n)) :
    recordsOf (IdSupply.idOf n) (perform s action supply).1.current =
      recordsOf (IdSupply.idOf n) s.current := by
  obtain ⟨records, held, sound⟩ := kept.current
  cases action with
  | save view now =>
    obtain ⟨records, _, after, s', supply', held, -, saves, saved, shown, -, -⟩ :=
      saveView_kept kept view now
    have other : IdSupply.idOf n ≠ IdSupply.idOf supply.next :=
      fun same ↦ drawn.ne (IdSupply.idOf_injective same)
    rw [perform_save saved, recordsOf, recordsOf, held, shown]
    exact saves.frame spares other
  | get id => rw [perform_get held, Session.proceed_current]
  | list agent => rw [perform_list held, Session.proceed_current]
  | delete id =>
    rw [perform_delete held, Session.proceed_current, recordsOf, recordsOf, held]
    simp only [Option.getD_some, List.filter_filter]
    refine List.filter_congr fun record _ ↦ ?_
    by_cases named : record.id = IdSupply.idOf n
    · simpa [named] using spares.symm
    · simp [named]
  | draw => rfl
  | commit => rfl
  | rollback => exact spares.elim

theorem run_frame (kept : s.Both (Kept supply)) {n : ℕ} (drawn : n < supply.next)
    (spared : ∀ action ∈ actions, action.Spares (IdSupply.idOf n)) :
    recordsOf (IdSupply.idOf n) (run s actions supply).1.current =
      recordsOf (IdSupply.idOf n) s.current := by
  induction actions generalizing s supply with
  | nil => rfl
  | cons action rest ih =>
    obtain ⟨kept', later⟩ := perform_kept kept action
    rw [run_cons, ih kept' (drawn.trans_le later) fun next among ↦
      spared next (List.mem_cons_of_mem _ among)]
    exact perform_frame kept drawn (spared action List.mem_cons_self)

theorem getView_only {stored : ViewRecord} (held : s.current.views = some records)
    (only : recordsOf id s.current = [stored]) : (s.getView id).1 = .ok (some stored) := by
  rw [recordsOf, held] at only
  rw [getView_eq held, ← List.head?_filter]
  exact congrArg (fun found ↦ Except.ok found.head?) only

theorem listViews_only {stored : ViewRecord} (held : s.current.views = some records)
    (only : recordsOf id s.current = [stored]) : ∃ listed,
      (s.listViews stored.agent).1 = .ok listed ∧ listed.filter (·.id == id) = [stored] := by
  rw [recordsOf, held, Option.getD_some] at only
  refine ⟨_, congrArg Prod.fst (listViews_eq held stored.agent), List.perm_singleton.mp ?_⟩
  have sorted := (List.mergeSort_perm
    (records.filter (·.agent == stored.agent)).reverse ViewRecord.listedBefore).trans
      (List.reverse_perm _)
  refine (sorted.filter _).trans ?_
  rw [List.filter_filter, ← List.filter_filter, List.filter_comm, only]
  simp

theorem recordsOf_eq {record : ViewRecord} (held : s.current.views = some records)
    (sound : ViewRecord.Sound supply records) (present : record ∈ records) :
    recordsOf record.id s.current = [record] := by
  rw [recordsOf, held]
  exact sound.only present

theorem run_shown {stored : ViewRecord} (kept : s.Both (Kept supply))
    (held : s.current.views = some records) (present : stored ∈ records)
    (spared : ∀ action ∈ actions, action.Spares stored.id) :
    ∃ listed, ((run s actions supply).1.getView stored.id).1 = .ok (some stored) ∧
      ((run s actions supply).1.listViews stored.agent).1 = .ok listed ∧
      listed.filter (·.id == stored.id) = [stored] := by
  obtain ⟨same, held', sound⟩ := kept.current
  cases held.symm.trans held'
  have only := recordsOf_eq held sound present
  obtain ⟨n, drawn, numbered⟩ := sound.drawn stored present
  rw [numbered] at spared only
  rw [← run_frame kept drawn spared, ← numbered] at only
  obtain ⟨last, heldLast, -⟩ := (run_kept kept actions).current
  obtain ⟨listed, lists, once⟩ := listViews_only heldLast only
  exact ⟨listed, getView_only heldLast only, lists, once⟩

/-- Saving a view that is answered, and sparing its id from then on: the view is shown and listed
under its id with its tree of filters as it was. Its columns are as they were, unless they replace
columns of the same value; then these stay. -/
theorem saved_view_kept {heldOpen : Bool} {before after : List ViewAction} {start : IdSupply}
    {view : SavedView} {now : Timestamp} {record : ViewRecord}
    (reached : run (Session.start {} heldOpen) before start = (s, supply))
    (saved : s.saveView view now supply = ((.ok (some record), s'), supply'))
    (finite : Json.membersFinite view.columns.extra = true)
    (spared : ∀ action ∈ after, action.Spares record.id) :
    ∃ stored kept listed,
      record.ReadAs (record.viewOf view.filters view.columns) ∧
      stored.ReadAs (record.viewOf view.filters kept) ∧
      ((run s' after supply').1.getView record.id).1 = .ok (some stored) ∧
      ((run s' after supply').1.listViews view.agent).1 = .ok listed ∧
      listed.filter (·.id == record.id) = [stored] ∧
      match view.id with
      | none => kept = view.columns
      | some id => ∃ old former, (s.getView id).1 = .ok (some old) ∧ old.ReadAs former ∧
          kept = view.columns.replacing former.columns := by
  have kept : s.Both (Kept supply) := by
    have := run_kept (start_kept heldOpen start) before
    rwa [reached] at this
  obtain ⟨records, answer, changed, next, supplied, held, sound, saves, saved', shown, kept', -⟩ :=
    saveView_kept kept view now
  cases saved.symm.trans saved'
  obtain ⟨stored, present, columns, written, stores, same, owned, replaced⟩ := saves.stored sound
  rw [VisibleColumns.finite_eq_self _ finite] at written replaced
  -- The record that is stored differs from the one that is answered in its columns only.
  have named : stored.id = record.id := Option.some.inj (congrArg SavedView.id same)
  have agent : stored.agent = view.agent := (congrArg SavedView.agent same).trans owned
  obtain ⟨listed, found, lists, once⟩ := run_shown kept' shown present (named ▸ spared)
  rw [named] at found once
  rw [agent] at lists
  refine ⟨stored, columns, listed, written.readAs, same ▸ stores.readAs, found, lists, once, ?_⟩
  rcases given : view.id with _ | id
  · simpa only [given] using replaced
  · simp only [given] at replaced
    obtain ⟨old, among, forest, former, rfl, oldHolds, stays⟩ := replaced
    exact ⟨old, _, getView_only held (recordsOf_eq held sound among), oldHolds.readAs, stays⟩

def widthView (id : Option String) (width : Json) : SavedView where
  id := id
  agent := "a"
  name := "n"
  filters := [⟨"g", .or, [⟨⟨"user_id", "is_empty", "", none⟩, "r"⟩], [⟨"h", .and, [], []⟩]⟩]
  columns := { extra := [("width", width)], unknown := by simp [VisibleColumns.sections] }
  createdAt := none
  updatedAt := none

def narrow : Session Tables :=
  (run (Session.start {} false) [save (widthView none (.int 1)) default] ⟨0⟩).1

def changedView : SavedView := widthView (some (IdSupply.idOf 0)) (.bool true)

def narrowRecord : ViewRecord :=
  ViewRecord.create (IdSupply.idOf 0) (widthView none (.int 1)) default

def changedRecord : ViewRecord := narrowRecord.write changedView default

def changedSession : Session Tables := (narrow.saveView changedView default ⟨1⟩).1.2

def sparingActions : List ViewAction :=
  [save (widthView none .null) default, delete "x", list "a", commit]

theorem saved_view_kept_width :
    run (Session.start {} false) [save (widthView none (.int 1)) default] ⟨0⟩ = (narrow, ⟨1⟩) ∧
      narrow.saveView changedView default ⟨1⟩ =
        ((.ok (some changedRecord), changedSession), ⟨1⟩) ∧
      (∀ action ∈ sparingActions, action.Spares changedRecord.id) ∧
      ∃ stored kept listed,
        changedRecord.ReadAs (changedRecord.viewOf changedView.filters changedView.columns) ∧
        stored.ReadAs (changedRecord.viewOf changedView.filters kept) ∧
        ((run changedSession sparingActions ⟨1⟩).1.getView changedRecord.id).1 =
          .ok (some stored) ∧
        ((run changedSession sparingActions ⟨1⟩).1.listViews "a").1 = .ok listed ∧
        listed.filter (·.id == changedRecord.id) = [stored] ∧
        ∃ old former, (narrow.getView (IdSupply.idOf 0)).1 = .ok (some old) ∧ old.ReadAs former ∧
          kept = changedView.columns.replacing former.columns := by
  have reached : run (Session.start {} false) [save (widthView none (.int 1)) default] ⟨0⟩ =
    (narrow, ⟨1⟩) := rfl
  have saved : narrow.saveView changedView default ⟨1⟩ =
    ((.ok (some changedRecord), changedSession), ⟨1⟩) := rfl
  have spared : ∀ action ∈ sparingActions, action.Spares changedRecord.id := by
    simp only [sparingActions, List.forall_mem_cons]
    exact ⟨(Option.some_ne_none _).symm, (by decide : "x" ≠ IdSupply.idOf 0), trivial, trivial,
      List.forall_mem_nil _⟩
  exact ⟨reached, saved, spared, saved_view_kept reached saved rfl spared⟩

theorem views_changedSession :
    changedSession.current.views = some [narrowRecord.storedAfter changedRecord] := by
  have named : (narrowRecord.id == IdSupply.idOf 0) = true := by decide
  show some ([narrowRecord].map fun record ↦ if record.id == IdSupply.idOf 0 then
    narrowRecord.storedAfter changedRecord else record) = _
  rw [List.map_singleton, if_pos named]

/-- The view is answered with the width true, and shown with the width 1 from then on. -/
theorem width_not_kept :
    ∃ stored,
      narrow.saveView changedView default ⟨1⟩ =
        ((.ok (some changedRecord), changedSession), ⟨1⟩) ∧
      changedRecord.ReadAs (changedRecord.viewOf changedView.filters changedView.columns) ∧
      (changedSession.getView changedRecord.id).1 = .ok (some stored) ∧
      stored.ReadAs (stored.viewOf changedView.filters (widthView none (.int 1)).columns) ∧
      (widthView none (.int 1)).columns ≠ changedView.columns := by
  have same : changedView.columns.toJson.same (widthView none (.int 1)).columns.toJson = true := by
    decide +kernel
  have new : changedRecord.Holds changedView.filters changedView.columns := ⟨rfl, rfl⟩
  have old : narrowRecord.Holds changedView.filters (widthView none (.int 1)).columns := ⟨rfl, rfl⟩
  have stored := new.storedAfter old
  rw [VisibleColumns.replacing, if_pos same] at stored
  have found : [narrowRecord.storedAfter changedRecord].find? (·.id == changedRecord.id) =
      some (narrowRecord.storedAfter changedRecord) :=
    List.find?_cons_of_pos (beq_self_eq_true changedRecord.id)
  have shown := congrArg Prod.fst (getView_eq views_changedSession changedRecord.id)
  rw [found] at shown
  refine ⟨narrowRecord.storedAfter changedRecord, rfl, new.readAs, shown, stored.readAs,
    fun equal ↦ ?_⟩
  have sections := congrArg VisibleColumns.extra equal
  simp [widthView, changedView] at sections

end ViewAction

end CallSearch
