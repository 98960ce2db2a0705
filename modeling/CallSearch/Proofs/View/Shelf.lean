import Mathlib.Data.Finmap
import Mathlib.Data.Prod.Lex
import Mathlib.Data.Set.List
import CallSearch.Proofs.View.Run

namespace CallSearch

/-- A view as it is kept under its id. -/
structure KeptView where
  agent : String
  name : String
  filters : Forest
  columns : VisibleColumns
  createdAt : Timestamp
  updatedAt : Timestamp

namespace KeptView

def shown (kept : KeptView) (id : String) : SavedView where
  id := some id
  agent := kept.agent
  name := kept.name
  filters := kept.filters
  columns := kept.columns
  createdAt := some ⟨kept.createdAt, none⟩
  updatedAt := some ⟨kept.updatedAt, none⟩

def created (view : SavedView) (now : Timestamp) : KeptView where
  agent := view.agent
  name := view.name
  filters := view.filters
  columns := view.columns.finite
  createdAt := now
  updatedAt := now

def edited (kept : KeptView) (view : SavedView) (now : Timestamp) : KeptView :=
  { kept with
    name := view.name
    filters := view.filters
    columns := view.columns.finite
    updatedAt := now }

/-- An edited view as it is kept. Columns of the same value as before stay as they were. -/
def replaced (kept : KeptView) (view : SavedView) (now : Timestamp) : KeptView :=
  { kept.edited view now with columns := view.columns.finite.replacing kept.columns }

/-- When a view was changed and, of views that were changed at the same time, created. -/
def times (kept : KeptView) : ℕ ×ₗ ℕ := toLex (kept.updatedAt.key, kept.createdAt.key)

def record (kept : KeptView) (id : String) : ViewRecord where
  id := id
  agent := kept.agent
  name := kept.name
  filters := .arr (kept.filters.map Group.toJson)
  columns := kept.columns.toJson
  createdAt := kept.createdAt
  updatedAt := kept.updatedAt

variable {kept other : KeptView} {id : String}

theorem record_holds (kept : KeptView) (id : String) :
    (kept.record id).Holds kept.filters kept.columns := ⟨rfl, rfl⟩

theorem record_readAs (kept : KeptView) (id : String) :
    (kept.record id).ReadAs (kept.shown id) :=
  (kept.record_holds id).readAs

theorem record_injective : Function.Injective fun entry : String × KeptView ↦
    entry.2.record entry.1 := by
  rintro ⟨id, kept⟩ ⟨id', kept'⟩ same
  have read : kept.shown id = kept'.shown id' := by
    have read := (kept.record_readAs id ⟨0⟩).symm.trans
      ((congrArg (ViewRecord.toView · ⟨0⟩) same).trans (kept'.record_readAs id' ⟨0⟩))
    exact Reading.value.inj (congrArg Prod.fst read)
  cases kept
  cases kept'
  simpa [shown] using read

end KeptView

abbrev Shelf := Finmap fun _ : String ↦ KeptView

/-- What is answered to an action: a view or none, the views of an agent, or whether there was
something to delete. -/
inductive ViewAnswer where
  | view (found : Option SavedView)
  | views (listed : List SavedView)
  | deleted (found : Bool)
  | nothing

namespace Shelf

/-- What a session with a shelf of views answers to an action, and the session from then on. -/
inductive Answers (s : Session Shelf) : ViewAction → ViewAnswer → Session Shelf → Prop
  | created {view : SavedView} {now : Timestamp} {id : String} (new : view.id = none)
      (free : id ∉ s.current) :
      Answers s (.save view now) (.view (some ((KeptView.created view now).shown id)))
        (s.proceed (s.current.insert id (.created view now)))
  | edited {view : SavedView} {now : Timestamp} {id : String} {kept : KeptView}
      (given : view.id = some id) (held : s.current.lookup id = some kept)
      (owned : kept.agent = view.agent) :
      Answers s (.save view now) (.view (some ((kept.edited view now).shown id)))
        (s.proceed (s.current.insert id (kept.replaced view now)))
  | missing {view : SavedView} {now : Timestamp} {id : String} (given : view.id = some id)
      (absent : ∀ kept, s.current.lookup id = some kept → kept.agent ≠ view.agent) :
      Answers s (.save view now) (.view none) (s.proceed s.current)
  | found {id : String} :
      Answers s (.get id) (.view ((s.current.lookup id).map (·.shown id))) (s.proceed s.current)
  | listed {agent : String} {entries : List (String × KeptView)} (once : entries.Nodup)
      (all : ∀ id kept, (id, kept) ∈ entries ↔
        s.current.lookup id = some kept ∧ kept.agent = agent)
      (latest : entries.Pairwise fun first second ↦ second.2.times ≤ first.2.times) :
      Answers s (.list agent) (.views (entries.map fun entry ↦ entry.2.shown entry.1))
        (s.proceed s.current)
  | deleted {id : String} :
      Answers s (.delete id) (.deleted (s.current.lookup id).isSome)
        (s.proceed (s.current.erase id))
  | drawn : Answers s .draw .nothing s
  | committed : Answers s .commit .nothing s.commit
  | rolledBack : Answers s .rollback .nothing s.rollback

/-- Actions and what is answered to them, one after the other. -/
inductive Runs : Session Shelf → List (ViewAction × ViewAnswer) → Session Shelf → Prop
  | nil (s : Session Shelf) : Runs s [] s
  | cons {s next last : Session Shelf} {action : ViewAction} {answer : ViewAnswer}
      {rest : List (ViewAction × ViewAnswer)} (answers : Answers s action answer next)
      (later : Runs next rest last) : Runs s ((action, answer) :: rest) last

end Shelf

namespace ViewAction

/-- What a session with the tables of the store answers to an action. -/
inductive Tells (s : Session Tables) (supply : IdSupply) : ViewAction → ViewAnswer → Prop
  | save {view : SavedView} {now : Timestamp} {answer : Option ViewRecord}
      {found : Option SavedView} (saved : (s.saveView view now supply).1.1 = .ok answer)
      (read : Option.Rel ViewRecord.ReadAs answer found) :
      Tells s supply (.save view now) (.view found)
  | get {id : String} {answer : Option ViewRecord} {found : Option SavedView}
      (got : (s.getView id).1 = .ok answer) (read : Option.Rel ViewRecord.ReadAs answer found) :
      Tells s supply (.get id) (.view found)
  | list {agent : String} {answer : List ViewRecord} {listed : List SavedView}
      (lists : (s.listViews agent).1 = .ok answer)
      (read : List.Forall₂ ViewRecord.ReadAs answer listed) :
      Tells s supply (.list agent) (.views listed)
  | delete {id : String} {found : Bool}
      (deleted : (s.run fun db ↦ db.deleteView id).1 = .ok found) :
      Tells s supply (.delete id) (.deleted found)
  | draw : Tells s supply .draw .nothing
  | commit : Tells s supply .commit .nothing
  | rollback : Tells s supply .rollback .nothing

inductive RunTells : Session Tables → IdSupply → List (ViewAction × ViewAnswer) → Prop
  | nil (s : Session Tables) (supply : IdSupply) : RunTells s supply []
  | cons {s : Session Tables} {supply : IdSupply} {action : ViewAction} {answer : ViewAnswer}
      {rest : List (ViewAction × ViewAnswer)} (tells : Tells s supply action answer)
      (later : RunTells (perform s action supply).1 (perform s action supply).2 rest) :
      RunTells s supply ((action, answer) :: rest)

end ViewAction

namespace ViewRecord

variable {first second : ViewRecord}

def times (record : ViewRecord) : ℕ ×ₗ ℕ := toLex (record.updatedAt.key, record.createdAt.key)

theorem listedBefore_iff : first.listedBefore second ↔ second.times ≤ first.times := by
  rw [times, times, Prod.Lex.toLex_le_toLex, listedBefore, Bool.or_eq_true, Bool.and_eq_true,
    decide_eq_true_iff, decide_eq_true_iff, beq_iff_eq]
  exact or_congr_right (and_congr_left' eq_comm)

theorem mergeSort_latest (records : List ViewRecord) :
    (records.mergeSort listedBefore).Pairwise fun first second ↦ second.times ≤ first.times := by
  have trans (a b c : ViewRecord) (h : a.listedBefore b) (h' : b.listedBefore c) :
      a.listedBefore c := by
    rw [listedBefore_iff] at h h' ⊢
    exact h'.trans h
  have total (a b : ViewRecord) : (a.listedBefore b || b.listedBefore a) = true := by
    rw [Bool.or_eq_true, listedBefore_iff, listedBefore_iff]
    exact le_total b.times a.times
  exact (List.pairwise_mergeSort trans total records).imp listedBefore_iff.mp

end ViewRecord

namespace Shelf

open ViewRecord

variable {shelf : Shelf} {records after : List ViewRecord} {supply supply' : IdSupply}
variable {view : SavedView} {now : Timestamp} {id : String} {kept : KeptView} {record : ViewRecord}

/-- The records of a table are those of the views on a shelf. -/
def Of (shelf : Shelf) (records : List ViewRecord) : Prop :=
  ∀ id kept, shelf.lookup id = some kept ↔ kept.record id ∈ records

theorem exists_kept (sound : Sound supply records) (present : record ∈ records) :
    ∃ kept : KeptView, kept.record record.id = record := by
  obtain ⟨forest, columns, held⟩ := sound.held record present
  refine ⟨⟨record.agent, record.name, forest, columns, record.createdAt, record.updatedAt⟩, ?_⟩
  rw [KeptView.record, ← held.filters, ← held.columns]

theorem Of.find? (of : shelf.Of records) (sound : Sound supply records) (id : String) :
    records.find? (·.id == id) = (shelf.lookup id).map (·.record id) := by
  cases held : shelf.lookup id with
  | none =>
    refine List.find?_eq_none.mpr fun record present named ↦ ?_
    obtain ⟨kept, same⟩ := exists_kept sound present
    rw [beq_iff_eq] at named
    rw [named] at same
    rw [← same, ← of, held] at present
    cases present
  | some kept =>
    have only := sound.only ((of id kept).mp held)
    rw [← List.head?_filter]
    exact congrArg List.head? only

theorem Of.free (of : shelf.Of records) (sound : Sound supply records) :
    IdSupply.idOf supply.next ∉ shelf := fun taken ↦ by
  obtain ⟨kept, held⟩ := Finmap.mem_iff.mp taken
  exact sound.fresh _ ((of _ kept).mp held) rfl

theorem Of.append (of : shelf.Of records) (free : id ∉ shelf) (new : KeptView) :
    Of (shelf.insert id new) (records ++ [new.record id]) := fun id' kept ↦ by
  rw [List.mem_append, List.mem_singleton]
  by_cases named : id' = id
  · subst named
    have absent : kept.record id' ∉ records := fun present ↦
      free (Finmap.mem_of_lookup_eq_some ((of id' kept).mpr present))
    rw [Finmap.lookup_insert, Option.some_inj, or_iff_right absent]
    refine ⟨fun same ↦ by rw [same], fun same ↦ ?_⟩
    exact (congrArg Prod.snd (@KeptView.record_injective (id', kept) (id', new) same)).symm
  · have other : kept.record id' ≠ new.record id := fun same ↦ named (congrArg ViewRecord.id same)
    rw [Finmap.lookup_insert_of_ne _ named, of id' kept, or_iff_left other]

theorem Of.replace (of : shelf.Of records) (held : shelf.lookup id = some kept)
    (new : KeptView) :
    Of (shelf.insert id new)
      (records.map fun record ↦ if record.id == id then new.record id else record) := by
  intro id' kept'
  rw [List.mem_map]
  by_cases named : id' = id
  · subst named
    rw [Finmap.lookup_insert, Option.some_inj]
    constructor
    · rintro rfl
      exact ⟨kept.record id', (of _ _).mp held, if_pos (beq_self_eq_true id')⟩
    · rintro ⟨record, -, changed⟩
      split_ifs at changed with same
      · exact congrArg Prod.snd (@KeptView.record_injective (id', new) (id', kept') changed)
      · rw [changed] at same
        exact absurd (beq_self_eq_true id') same
  · rw [Finmap.lookup_insert_of_ne _ named, of]
    constructor
    · intro present
      exact ⟨_, present, if_neg (by simpa [KeptView.record] using named)⟩
    · rintro ⟨record, present, changed⟩
      split_ifs at changed with same
      · exact absurd (congrArg ViewRecord.id changed).symm named
      · exact changed ▸ present

theorem Of.erase (of : shelf.Of records) (id : String) :
    Of (shelf.erase id) (records.filter (·.id != id)) := fun id' kept ↦ by
  rw [List.mem_filter]
  by_cases named : id' = id
  · subst named
    simp [KeptView.record]
  · rw [Finmap.lookup_erase_ne named, of]
    simp [KeptView.record, named]

theorem create_eq (id : String) (view : SavedView) (now : Timestamp) :
    ViewRecord.create id view now = (KeptView.created view now).record id := by
  rw [KeptView.record, KeptView.created, ← VisibleColumns.finite_toJson]
  rfl

theorem write_eq (kept : KeptView) (id : String) (view : SavedView) (now : Timestamp) :
    (kept.record id).write view now = (kept.edited view now).record id := by
  rw [ViewRecord.write, VisibleColumns.finite_toJson]
  rfl

theorem storedAfter_eq (kept : KeptView) (id : String) (view : SavedView) (now : Timestamp) :
    (kept.record id).storedAfter ((kept.record id).write view now) =
      (kept.replaced view now).record id := by
  rw [write_eq]
  have stores := ((kept.edited view now).record_holds id).storedAfter (kept.record_holds id)
  exact (ViewRecord.mk.injEq ..).mpr ⟨rfl, rfl, rfl, stores.filters, stores.columns, rfl, rfl⟩

theorem Of.save {s : Session Shelf} {answer : Option ViewRecord} (of : s.current.Of records)
    (sound : Sound supply records) (saves : Saves records supply view now answer after supply') :
    ∃ found shelf, Option.Rel ReadAs answer found ∧ shelf.Of after ∧
      Answers s (.save view now) (.view found) (s.proceed shelf) := by
  cases saves with
  | @created record new same =>
    have free := of.free sound
    rw [same, create_eq]
    exact ⟨_, _, .some (KeptView.record_readAs _ _), of.append free _, .created new free⟩
  | @missing id given absent =>
    refine ⟨none, s.current, .none, of, .missing given fun kept held ↦ ?_⟩
    exact absent _ ((of id kept).mp held) rfl
  | @changed id old stored given present named owned changed =>
    obtain ⟨kept, same⟩ := exists_kept sound present
    rw [named] at same
    subst same
    have held := (of id kept).mpr present
    rw [changed, storedAfter_eq, write_eq]
    exact ⟨_, _, .some (KeptView.record_readAs _ _), of.replace held _, .edited given held owned⟩

theorem Of.shown (of : shelf.Of records) (sound : Sound supply records) (id : String) :
    Option.Rel ReadAs (records.find? (·.id == id)) ((shelf.lookup id).map (·.shown id)) := by
  rw [of.find? sound]
  cases shelf.lookup id with
  | none => exact .none
  | some kept => exact .some (kept.record_readAs id)

theorem Of.listed (of : shelf.Of records) (sound : Sound supply records) (agent : String) :
    ∃ entries : List (String × KeptView),
      (records.filter (·.agent == agent)).reverse.mergeSort ViewRecord.listedBefore =
        entries.map (fun entry ↦ entry.2.record entry.1) ∧
      entries.Nodup ∧
      (∀ id kept, (id, kept) ∈ entries ↔ shelf.lookup id = some kept ∧ kept.agent = agent) ∧
      entries.Pairwise fun first second ↦ second.2.times ≤ first.2.times := by
  have sorted := (List.mergeSort_perm (records.filter (·.agent == agent)).reverse
    ViewRecord.listedBefore).trans (List.reverse_perm _)
  have latest := mergeSort_latest (records.filter (·.agent == agent)).reverse
  generalize (records.filter (·.agent == agent)).reverse.mergeSort ViewRecord.listedBefore = listed
    at sorted latest
  have kept : listed ∈ Set.range (List.map fun entry : String × KeptView ↦
      entry.2.record entry.1) := by
    rw [Set.range_list_map]
    intro record among
    obtain ⟨kept, same⟩ := exists_kept sound (List.mem_filter.mp (sorted.subset among)).1
    exact ⟨(record.id, kept), same⟩
  obtain ⟨entries, rfl⟩ := kept
  refine ⟨entries, rfl, ?_, fun id kept ↦ ?_, ?_⟩
  · have distinct := (sound.filter (·.agent == agent)).distinct.of_map
    exact ((sorted.nodup_iff).mpr distinct).of_map
  · rw [of, ← List.mem_map_of_injective KeptView.record_injective, sorted.mem_iff, List.mem_filter]
    simp [KeptView.record]
  · exact List.pairwise_map.mp latest

end Shelf

namespace ViewAction

open CallSearch.Shelf

/-- The tables of a session hold the records of the views on the shelves of another. -/
structure Matched (shelves : Session Shelf) (s : Session Tables) : Prop where
  saved : shelves.saved.Of (s.saved.views.getD [])
  current : shelves.current.Of (s.current.views.getD [])
  heldOpen : shelves.heldOpen = s.heldOpen

variable {shelves : Session Shelf} {s : Session Tables} {shelf : Shelf} {db : Tables}
variable {supply : IdSupply}

theorem Matched.proceed (matched : Matched shelves s) (of : shelf.Of (db.views.getD [])) :
    Matched (shelves.proceed shelf) (s.proceed db) := by
  rw [Session.proceed, Session.proceed, matched.heldOpen]
  split_ifs with heldOpen
  · exact ⟨matched.saved, of, rfl⟩
  · exact ⟨of, of, rfl⟩

theorem perform_answers (matched : Matched shelves s) (kept : s.Both (Kept supply))
    (action : ViewAction) : ∃ answer next, Tells s supply action answer ∧
      Answers shelves action answer next ∧ Matched next (perform s action supply).1 := by
  obtain ⟨records, held, sound⟩ := kept.current
  have of := matched.current
  rw [held, Option.getD_some] at of
  cases action with
  | save view now =>
    obtain ⟨answer, after, supply', saves, saved⟩ := saveView_saves held view now supply
    obtain ⟨found, shelf, read, of', answers⟩ := of.save sound saves
    refine ⟨.view found, _, .save (congrArg (·.1.1) saved) read, answers, ?_⟩
    rw [perform_save saved]
    exact matched.proceed of'
  | get id =>
    refine ⟨_, _, .get (congrArg Prod.fst (getView_eq held id)) (of.shown sound id), .found, ?_⟩
    rw [perform_get held]
    exact matched.proceed matched.current
  | list agent =>
    obtain ⟨entries, lists, once, all, latest⟩ := of.listed sound agent
    have told := congrArg Prod.fst (listViews_eq held agent)
    rw [lists] at told
    refine ⟨_, _, .list told ?_, .listed once all latest, ?_⟩
    · rw [List.forall₂_map_left_iff, List.forall₂_map_right_iff, List.forall₂_same]
      exact fun entry _ ↦ entry.2.record_readAs entry.1
    · rw [perform_list held]
      exact matched.proceed matched.current
  | delete id =>
    have told : (s.run fun db ↦ db.deleteView id).1 = .ok (shelves.current.lookup id).isSome := by
      have found := congrArg Option.isSome (of.find? sound id)
      rw [List.isSome_find?, Option.isSome_map] at found
      rw [← found, Session.run, Tables.deleteView, held]
      rfl
    refine ⟨_, _, .delete told, .deleted, ?_⟩
    rw [perform_delete held]
    exact matched.proceed (of.erase id)
  | draw => exact ⟨_, _, .draw, .drawn, matched⟩
  | commit => exact ⟨_, _, .commit, .committed, matched.current, matched.current, matched.heldOpen⟩
  | rollback => exact ⟨_, _, .rollback, .rolledBack, matched.saved, matched.saved, matched.heldOpen⟩

theorem run_answers (matched : Matched shelves s) (kept : s.Both (Kept supply))
    (actions : List ViewAction) : ∃ exchanges last, exchanges.map Prod.fst = actions ∧
      RunTells s supply exchanges ∧ Shelf.Runs shelves exchanges last ∧
      Matched last (run s actions supply).1 := by
  induction actions generalizing shelves s supply with
  | nil => exact ⟨[], shelves, rfl, .nil s supply, .nil shelves, matched⟩
  | cons action rest ih =>
    obtain ⟨answer, next, tells, answers, matched'⟩ := perform_answers matched kept action
    obtain ⟨exchanges, last, same, told, runs, matched''⟩ :=
      ih matched' (perform_kept kept action).1
    exact ⟨(action, answer) :: exchanges, last, by rw [List.map_cons, same], .cons tells told,
      .cons answers runs, matched''⟩

theorem start_matched (heldOpen : Bool) :
    Matched (Session.start ∅ heldOpen) (Session.start {} heldOpen) :=
  have empty : Shelf.Of ∅ [] := fun id kept ↦ by simp
  ⟨empty, empty, rfl⟩

/-- A session that starts without views answers all actions as a session with an empty shelf does,
and ends with the records of the views that are then on the shelf. -/
theorem answered_as_shelf (heldOpen : Bool) (supply : IdSupply) (actions : List ViewAction) :
    ∃ exchanges last, exchanges.map Prod.fst = actions ∧
      RunTells (Session.start {} heldOpen) supply exchanges ∧
      Shelf.Runs (Session.start ∅ heldOpen) exchanges last ∧
      Matched last (run (Session.start {} heldOpen) actions supply).1 :=
  run_answers (start_matched heldOpen) (start_kept heldOpen supply) actions

end ViewAction

end CallSearch
