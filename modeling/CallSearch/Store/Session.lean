namespace CallSearch

structure Session (σ : Type) where
  saved : σ
  current : σ
  heldOpen : Bool

namespace Session

variable {σ ε α : Type}

def start (state : σ) (heldOpen : Bool) : Session σ := ⟨state, state, heldOpen⟩

def commit (s : Session σ) : Session σ := { s with saved := s.current }

def rollback (s : Session σ) : Session σ := { s with current := s.saved }

def proceed (s : Session σ) (state : σ) : Session σ :=
  if s.heldOpen then { s with current := state } else ({ s with current := state }).commit

def settle (s : Session σ) : Except ε (α × σ) → Except ε α × Session σ
  | .ok (result, state) => (.ok result, s.proceed state)
  | .error error => (.error error, s.rollback)

def run (s : Session σ) (action : σ → Except ε (α × σ)) : Except ε α × Session σ :=
  s.settle (action s.current)

def ask (s : Session σ) (question : σ → Except ε α) : Except ε α × Session σ :=
  s.run fun state => (question state).map fun result => (result, state)

/-- Runs a question in a transaction of its own, which takes what is not saved along: that is saved
if there is an answer and taken back if there is none. -/
def askApart (s : Session σ) (question : σ → Option α) : Option α × Session σ :=
  match question s.current with
  | some result => (some result, s.commit)
  | none => (none, s.rollback)

def damage (s : Session σ) (change : σ → σ) : Session σ :=
  { s with saved := change s.saved, current := change s.current }

end Session

end CallSearch
