import Mathlib.Tactic.SplitIfs
import CallSearch.Proofs.Outcome
import CallSearch.Store.Session

namespace CallSearch.Session

variable {σ ε α : Type} {s : Session σ} {P : σ → Prop} {state : σ}

/-- What holds of the state that is saved and of the current one. -/
structure Both (P : σ → Prop) (s : Session σ) : Prop where
  saved : P s.saved
  current : P s.current

theorem proceed_current (s : Session σ) (state : σ) : (s.proceed state).current = state := by
  rw [proceed]
  split_ifs <;> rfl

theorem Both.proceed (both : s.Both P) (next : P state) : (s.proceed state).Both P := by
  rw [Session.proceed]
  split_ifs
  · exact ⟨both.saved, next⟩
  · exact ⟨next, next⟩

theorem Both.commit (both : s.Both P) : s.commit.Both P := ⟨both.current, both.current⟩

theorem Both.rollback (both : s.Both P) : s.rollback.Both P := ⟨both.saved, both.saved⟩

/-- Nothing is left to be saved, unless the session is held open. -/
def Settled (s : Session σ) : Prop := s.heldOpen = false → s.saved = s.current

theorem run_cases (s : Session σ) (action : σ → Except ε (α × σ)) :
    (∃ result state, action s.current = .ok (result, state) ∧
        s.run action = (.ok result, s.proceed state)) ∨
      ∃ error, action s.current = .error error ∧ s.run action = (.error error, s.rollback) := by
  rw [run]
  cases action s.current with
  | ok outcome => exact .inl ⟨outcome.1, outcome.2, rfl, rfl⟩
  | error error => exact .inr ⟨error, rfl, rfl⟩

theorem heldOpen_run (s : Session σ) (action : σ → Except ε (α × σ)) :
    (s.run action).2.heldOpen = s.heldOpen := by
  obtain ⟨_, state, -, h⟩ | ⟨_, -, h⟩ := s.run_cases action
  · rw [h, proceed]
    split_ifs <;> rfl
  · rw [h]
    rfl

theorem settled_start (state : σ) (heldOpen : Bool) : (start state heldOpen).Settled := fun _ ↦ rfl

theorem settled_run (s : Session σ) (action : σ → Except ε (α × σ)) :
    (s.run action).2.Settled := by
  intro own
  obtain ⟨_, state, -, h⟩ | ⟨_, -, h⟩ := s.run_cases action
  · rw [h, proceed] at own ⊢
    split_ifs at own ⊢ with held
    · exact absurd held (by simpa using own)
    · rfl
  · rw [h]
    rfl

theorem Settled.rollback_eq (settled : s.Settled) (own : s.heldOpen = false) : s.rollback = s := by
  obtain ⟨saved, current, heldOpen⟩ := s
  obtain rfl : saved = current := settled own
  rfl

theorem Settled.proceed_eq (settled : s.Settled) : s.proceed s.current = s := by
  rw [proceed]
  split_ifs with held
  · rfl
  · obtain ⟨saved, current, heldOpen⟩ := s
    obtain rfl : saved = current := settled (by simpa using held)
    rfl

theorem saved_run (held : s.heldOpen = true) (action : σ → Except ε (α × σ)) :
    (s.run action).2.saved = s.saved := by
  obtain ⟨_, state, -, h⟩ | ⟨_, -, h⟩ := s.run_cases action
  · rw [h, proceed, if_pos held]
  · rw [h]
    rfl

theorem Settled.ask_ok (settled : s.Settled) {question : σ → Except ε α} {answer : α}
    (answered : (s.ask question).1 = .ok answer) : (s.ask question).2 = s := by
  rw [ask] at answered ⊢
  obtain ⟨result, state, asked, h⟩ | ⟨_, -, h⟩ :=
    s.run_cases fun state ↦ (question state).map fun result ↦ (result, state)
  · obtain ⟨_, -, same⟩ := ok_map_iff.mp asked
    cases same
    rw [h]
    exact settled.proceed_eq
  · rw [h] at answered
    cases answered

end CallSearch.Session
