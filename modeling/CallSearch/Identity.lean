import CallSearch.Text.Quoted

namespace CallSearch

/-- The ids that have not been handed out yet, as the number of the next one. -/
structure IdSupply where
  next : Nat
deriving DecidableEq, Inhabited

abbrev Fresh (α : Type) := StateM IdSupply α

namespace IdSupply

def idOf (n : Nat) : String :=
  let digits := Nat.toDigits 16 n
  String.ofList (List.replicate (32 - digits.length) '0' ++ digits)

end IdSupply

def freshId : Fresh String := fun supply => (IdSupply.idOf supply.next, ⟨supply.next + 1⟩)

end CallSearch
