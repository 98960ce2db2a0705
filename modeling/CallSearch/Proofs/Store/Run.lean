import CallSearch.Proofs.Store.Write

namespace CallSearch

inductive CallQuestion where
  | page (predicates : List Predicate) (order : SortOrder) (window : Window)
  | all (predicates : List Predicate) (order : SortOrder) (size : ℤ)
  | count (predicates : List Predicate)
  | sample (agent : String) (limit : Option ℤ)
  | signals (now : Timestamp) (agent : String) (days : Option ℤ)

inductive CallAnswer where
  | calls (calls : List Call)
  | size (n : ℕ)

def CallQuestion.answer (db : Tables) : CallQuestion → Except LookbackError CallAnswer
  | page predicates order window =>
    ((db.calls.fetch predicates order window).map .calls).mapError .query
  | all predicates order size =>
    ((db.calls.fetchAll predicates order size).map .calls).mapError .query
  | count predicates => ((db.calls.count predicates).map .size).mapError .query
  | sample agent limit => ((db.calls.sample agent limit).map .calls).mapError .query
  | signals now agent days => (db.calls.signalCalls now agent days).map .calls

namespace Session

def addCalls (s : Session Tables) (now : Timestamp) (records : List Json) :
    Except InsertError ℕ × Session Tables :=
  s.run fun db ↦ db.add now records

def askCalls (s : Session Tables) (question : CallQuestion) :
    Except LookbackError CallAnswer × Session Tables :=
  s.ask fun db ↦ question.answer db

end Session

/-- What is done in a session with calls. -/
inductive CallAction where
  | add (now : Timestamp) (records : List Json)
  | ask (question : CallQuestion)
  | commit

namespace CallAction

def perform (s : Session Tables) : CallAction → Session Tables
  | add now records => (s.addCalls now records).2
  | ask question => (s.askCalls question).2
  | commit => s.commit

def run (s : Session Tables) (actions : List CallAction) : Session Tables :=
  actions.foldl perform s

/-- The first actions go up to the last commit of all, or are none if there is no commit. -/
structure UpToCommit (earlier later : List CallAction) : Prop where
  ends : earlier = [] ∨ ∃ before, earlier = before ++ [commit]
  last : commit ∉ later

variable {s : Session Tables} {action : CallAction} {actions : List CallAction} {heldOpen : Bool}

theorem run_concat (s : Session Tables) (actions : List CallAction) (action : CallAction) :
    run s (actions ++ [action]) = perform (run s actions) action := by
  rw [run, List.foldl_append]
  rfl

theorem heldOpen_perform (s : Session Tables) (action : CallAction) :
    (perform s action).heldOpen = s.heldOpen := by
  cases action with
  | add | ask => exact s.heldOpen_run _
  | commit => rfl

theorem settled_perform (s : Session Tables) (action : CallAction) :
    (perform s action).Settled := by
  cases action with
  | add | ask => exact s.settled_run _
  | commit => exact fun _ ↦ rfl

theorem heldOpen_run (s : Session Tables) (actions : List CallAction) :
    (run s actions).heldOpen = s.heldOpen := by
  induction actions generalizing s with
  | nil => rfl
  | cons action rest ih => exact (ih (perform s action)).trans (heldOpen_perform s action)

theorem settled_run (settled : s.Settled) (actions : List CallAction) :
    (run s actions).Settled := by
  induction actions generalizing s with
  | nil => exact settled
  | cons action rest ih => exact ih (settled_perform s action)

theorem saved_perform (held : s.heldOpen = true) (other : action ≠ commit) :
    (perform s action).saved = s.saved := by
  cases action with
  | add | ask => exact Session.saved_run held _
  | commit => exact absurd rfl other

/-- What is saved in a session that is held open is what there was at the last commit. -/
theorem saved_run (db : Tables) (actions : List CallAction) :
    ∃ earlier later, actions = earlier ++ later ∧ UpToCommit earlier later ∧
      (run (.start db true) actions).saved = (run (.start db true) earlier).current := by
  induction actions using List.reverseRecOn with
  | nil => exact ⟨[], [], rfl, ⟨.inl rfl, List.not_mem_nil⟩, rfl⟩
  | append_singleton actions action ih =>
    by_cases committed : action = commit
    · subst committed
      refine ⟨actions ++ [commit], [], (List.append_nil _).symm, ⟨.inr ⟨actions, rfl⟩, by simp⟩, ?_⟩
      rw [run_concat]
      rfl
    · obtain ⟨earlier, later, rfl, upTo, saved⟩ := ih
      refine ⟨earlier, later ++ [action], List.append_assoc .., ⟨upTo.ends, ?_⟩, ?_⟩
      · simp [upTo.last, Ne.symm committed]
      · rw [run_concat, saved_perform (heldOpen_run _ _) committed, saved]

theorem addCalls_ok {now : Timestamp} {records : List Json} {n : ℕ} {after : Session Tables}
    (added : s.addCalls now records = (.ok n, after)) :
    n = records.length ∧ ∃ calls,
      after = s.proceed { s.current with calls := s.current.calls.map (· ++ calls) } ∧
      List.Forall₂ (Call.Records now) records calls ∧ UniqueIds calls ∧
      ∀ call ∈ calls, call.id ∉ (s.current.calls.getD []).map Call.id := by
  obtain ⟨_, _, performed, h⟩ | ⟨_, -, h⟩ := s.run_cases fun db ↦ db.add now records
  · cases added.symm.trans h
    obtain ⟨table, inserted, same⟩ := ok_map_iff.mp performed
    cases same
    obtain ⟨calls, rfl, recorded, distinct, new⟩ := insertRecords_added inserted
    exact ⟨rfl, calls, rfl, recorded, distinct, new⟩
  · cases added.symm.trans h

theorem addCalls_error {now : Timestamp} {records : List Json} {error : InsertError}
    {after : Session Tables} (failed : s.addCalls now records = (.error error, after)) :
    after = s.rollback := by
  obtain ⟨_, _, -, h⟩ | ⟨_, -, h⟩ := s.run_cases fun db ↦ db.add now records
  · cases failed.symm.trans h
  · cases failed.symm.trans h
    rfl

/-- Whatever was done in a session, records that are added are added all: one call for each stands
behind the calls that were there, under a new id. If one of them cannot be added, none is, and there
is what was there before, or what was committed last if the session is held open. Answers change
nothing. -/
theorem add_all_or_none (db : Tables) (heldOpen : Bool) (actions : List CallAction) :
    let s := run (.start db heldOpen) actions
    (∀ now records n after, s.addCalls now records = (.ok n, after) →
      n = records.length ∧ ∃ calls,
        after = s.proceed { s.current with calls := s.current.calls.map (· ++ calls) } ∧
        List.Forall₂ (Call.Records now) records calls ∧ UniqueIds calls ∧
        ∀ call ∈ calls, call.id ∉ (s.current.calls.getD []).map Call.id) ∧
    (∀ now records error after, s.addCalls now records = (.error error, after) →
      if heldOpen then ∃ earlier later, actions = earlier ++ later ∧ UpToCommit earlier later ∧
        after = .start (run (.start db heldOpen) earlier).current heldOpen
      else after = s) ∧
    ∀ question answer after, s.askCalls question = (.ok answer, after) → after = s := by
  intro s
  have settled : s.Settled := settled_run (Session.settled_start db heldOpen) actions
  have held : s.heldOpen = heldOpen := heldOpen_run _ actions
  refine ⟨fun _ _ _ _ ↦ addCalls_ok, fun now records error after failed ↦ ?_, ?_⟩
  · rw [addCalls_error failed]
    cases heldOpen with
    | false => exact settled.rollback_eq held
    | true =>
      obtain ⟨earlier, later, split, upTo, saved⟩ := saved_run db actions
      refine ⟨earlier, later, split, upTo, ?_⟩
      rw [← saved, Session.start, Session.rollback, held]
  · intro question answer after answered
    obtain rfl : (s.askCalls question).2 = after := congrArg Prod.snd answered
    exact settled.ask_ok (congrArg Prod.fst answered)

def plainRecord : Json := .obj [("agent_id", .str "a")]

def committedOnce : List CallAction :=
  [.add (.startOf default) [plainRecord], .commit, .add (.startOf default) [plainRecord]]

/-- Two more calls are added behind the two that are there. A record without an agent stops the record
before it as well, and takes back all that was not committed. -/
theorem add_all_or_none_committed :
    let s := run (.start {} true) committedOnce
    (∃ after calls, s.addCalls (.startOf default) [plainRecord, plainRecord] = (.ok 2, after) ∧
      after = s.proceed { s.current with calls := s.current.calls.map (· ++ calls) } ∧
      UniqueIds calls ∧ after.current.calls.map (·.map Call.id) = some [1, 2, 3, 4]) ∧
    ∃ error after earlier later,
      s.addCalls (.startOf default) [plainRecord, .obj []] = (.error error, after) ∧
      committedOnce = earlier ++ later ∧ UpToCommit earlier later ∧
      after = .start (run (.start {} true) earlier).current true ∧
      after.current.calls.map (·.map Call.id) = some [1] := by
  intro s
  obtain ⟨adds, fails, -⟩ := add_all_or_none {} true committedOnce
  constructor
  · have count : (s.addCalls (.startOf default) [plainRecord, plainRecord]).1 = .ok 2 := by
      decide +kernel
    have added : s.addCalls (.startOf default) [plainRecord, plainRecord] =
      (.ok 2, (s.addCalls (.startOf default) [plainRecord, plainRecord]).2) := Prod.ext count rfl
    obtain ⟨-, calls, proceeds, -, unique, -⟩ := adds _ _ _ _ added
    exact ⟨_, calls, added, proceeds, unique, by decide +kernel⟩
  · have refused : (s.addCalls (.startOf default) [plainRecord, .obj []]).1.toBool = false := by
      decide +kernel
    have left : (s.addCalls (.startOf default) [plainRecord, .obj []]).2.current.calls.map
        (·.map Call.id) = some [1] := by decide +kernel
    cases failed : s.addCalls (.startOf default) [plainRecord, .obj []] with
    | mk answer after =>
      rw [failed] at refused left
      cases answer with
      | ok n => cases refused
      | error error =>
        obtain ⟨earlier, later, split, upTo, same⟩ := fails _ _ _ _ failed
        exact ⟨error, after, earlier, later, rfl, split, upTo, same, left⟩

end CallAction

end CallSearch
