import CallSearch.Number

namespace CallSearch

structure Timed (ν : Type) where
  value : ν
  since : Number

structure TimedCache (κ ν : Type) where
  entries : List (κ × Timed ν) := []

def withinLifetime (lifetime since now : Number) : Bool :=
  lifetime.same (.int 0) || (now.add since.neg).lt lifetime

namespace TimedCache

variable {κ ν : Type} [BEq κ]

def find? (cache : TimedCache κ ν) (key : κ) : Option (Timed ν) := cache.entries.lookup key

def fresh? (cache : TimedCache κ ν) (lifetime now : Number) (key : κ) : Option ν :=
  match cache.find? key with
  | some entry => if withinLifetime lifetime entry.since now then some entry.value else none
  | none => none

def remove (cache : TimedCache κ ν) (test : κ → Bool) : TimedCache κ ν :=
  ⟨cache.entries.filter fun entry => !test entry.1⟩

def put (cache : TimedCache κ ν) (key : κ) (value : ν) (now : Number) : TimedCache κ ν :=
  ⟨(key, ⟨value, now⟩) :: (cache.remove (· == key)).entries⟩

end TimedCache

end CallSearch
