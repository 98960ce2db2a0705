import Mathlib.Data.List.TakeWhile
import CallSearch.Store.Source

namespace CallSearch.Json

variable {document value : Json} {name : String} {path : List String}

/-- Whether no name of a member has a NUL in it. -/
def NulFree (document : Json) : Prop := ∀ member ∈ document.members, '\x00' ∉ member.1.toList

theorem storedName_eq (free : '\x00' ∉ name.toList) : storedName name = name := by
  have whole : name.toList.takeWhile (· != '\x00') = name.toList := by
    rw [List.takeWhile_eq_self_iff]
    intro c hc
    rw [bne_iff_ne]
    rintro rfl
    exact free hc
  rw [storedName, whole, String.ofList_toList]

/-- Whether no other name in a document is to the store the name of a member. -/
def Unmistaken (document : Json) (name : String) : Prop :=
  ∀ member ∈ document.members, storedName member.1 = name ↔ member.1 = name

theorem NulFree.unmistaken (free : document.NulFree) (name : String) : document.Unmistaken name := by
  intro member among
  rw [storedName_eq (free member among)]

theorem find?_eq_lookup {members : List (String × Json)} {name : String}
    (unmistaken : ∀ member ∈ members, storedName member.1 = name ↔ member.1 = name) :
    (members.find? (storedName ·.1 == name)).map (·.2) = members.lookup name := by
  induction members with
  | nil => rfl
  | cons member rest ih =>
    rw [List.forall_mem_cons] at unmistaken
    obtain ⟨first, later⟩ := unmistaken
    have same : (storedName member.1 == name) = (name == member.1) := by
      rw [Bool.eq_iff_iff, beq_iff_eq, beq_iff_eq, first, eq_comm]
    rw [List.find?_cons, List.lookup_cons, same]
    cases name == member.1 with
    | true => rfl
    | false => exact ih later

theorem Unmistaken.storedMember?_eq (unmistaken : document.Unmistaken name) :
    document.storedMember? name = document.member? name := by
  rw [storedMember?, find?_eq_lookup unmistaken]
  cases document <;> rfl

theorem storedMember?_eq (free : document.NulFree) (name : String) :
    document.storedMember? name = document.member? name :=
  (free.unmistaken name).storedMember?_eq

theorem memberText?_single (plain : isPlainName name) :
    document.memberText? [name] = (document.storedMember? name).bind storeText? := by
  have all : [name].all isPlainName := by simpa using plain
  rw [memberText?, if_pos all, storedWalk?]
  congr 1
  cases document.storedMember? name <;> rfl

theorem Unmistaken.memberText?_eq (unmistaken : document.Unmistaken name)
    (plain : isPlainName name) :
    document.memberText? [name] = (document.member? name).bind storeText? := by
  rw [memberText?_single plain, unmistaken.storedMember?_eq]

theorem unmistaken_single (free : '\x00' ∉ name.toList) (value : Json) :
    (obj [(name, value)]).Unmistaken name := by
  intro member among
  rw [List.mem_singleton.mp among]
  exact iff_of_true (storedName_eq free) rfl

/-- Whether a value says nothing to the store: null, and what is not a number. -/
def IsNothing : Json → Prop
  | .null => True
  | .real x => x.isNan
  | _ => False

theorem storeText?_eq_none_iff : value.storeText? = none ↔ value.IsNothing := by
  cases value with
  | real x => cases nan : x.isNan <;> simp [storeText?, IsNothing, nan]
  | _ => simp [storeText?, IsNothing]

end CallSearch.Json
