import CallSearch.Json.Basic
import CallSearch.Proofs.Text

namespace CallSearch.Json

variable {document value found : Json} {path name : String} {names : List String}

/-- The way through a document that takes the member of each name in turn. Of two members of one
name it takes the first. -/
inductive Reaches : Json → List String → Json → Prop
  | here (document : Json) : Reaches document [] document
  | inside {name : String} {value found : Json} {names : List String}
      (before after : List (String × Json)) (first : ∀ m ∈ before, m.1 ≠ name)
      (rest : Reaches value names found) :
      Reaches (.obj (before ++ (name, value) :: after)) (name :: names) found

/-- A value without a member of some name: no object, or an object in which no member has it. -/
def Lacks (document : Json) (name : String) : Prop := ∀ m ∈ document.members, m.1 ≠ name

/-- The way ends before the last of the names, at a value without a member of the next one. -/
def BreaksOff (document : Json) (names : List String) : Prop :=
  ∃ before name after stop, names = before ++ name :: after ∧ Reaches document before stop ∧
    stop.Lacks name

/-- A path is made of the names that it joins with dots. The empty path is made of none. -/
def MadeOf (path : String) (names : List String) : Prop :=
  if path = "" then names = []
  else ".".intercalate names = path ∧ ∀ name ∈ names, '.' ∉ name.toList

theorem member?_eq_some_iff : document.member? name = some value ↔
    ∃ before after, document = .obj (before ++ (name, value) :: after) ∧
      ∀ m ∈ before, m.1 ≠ name := by
  cases document with
  | obj members =>
    rw [member?, List.lookup_eq_some_iff]
    simp only [bne_iff_ne, ne_comm, obj.injEq]
  | _ => simp [member?]

theorem member?_eq_none_iff : document.member? name = none ↔ document.Lacks name := by
  cases document with
  | obj list =>
    rw [member?, List.lookup_eq_none_iff, Lacks, members]
    simp only [bne_iff_ne, ne_comm]
  | _ => simp [member?, Lacks, members]

theorem walk?_eq_some_iff : document.walk? names = some found ↔ Reaches document names found := by
  constructor
  · intro walked
    induction names generalizing document with
    | nil =>
      cases walked
      exact .here _
    | cons name rest ih =>
      obtain ⟨value, taken, later⟩ := Option.bind_eq_some_iff.mp walked
      obtain ⟨before, after, rfl, first⟩ := member?_eq_some_iff.mp taken
      exact .inside before after first (ih later)
  · intro reached
    induction reached with
    | here document => rfl
    | inside before after first rest ih =>
      rw [walk?, member?_eq_some_iff.mpr ⟨before, after, rfl, first⟩]
      exact ih

theorem walk?_append (document : Json) (names others : List String) :
    document.walk? (names ++ others) = (document.walk? names).bind (walk? · others) := by
  induction names generalizing document with
  | nil => rfl
  | cons name rest ih =>
    rw [List.cons_append, walk?, walk?, Option.bind_assoc]
    simp only [ih]

theorem walk?_eq_none_iff : document.walk? names = none ↔ BreaksOff document names := by
  constructor
  · intro walked
    induction names generalizing document with
    | nil => cases walked
    | cons name rest ih =>
      cases taken : document.member? name with
      | none => exact ⟨[], name, rest, document, rfl, .here document, member?_eq_none_iff.mp taken⟩
      | some value =>
        rw [walk?, taken, Option.bind_some] at walked
        obtain ⟨before, next, after, stop, rfl, reached, lacks⟩ := ih walked
        obtain ⟨first, others, rfl, earlier⟩ := member?_eq_some_iff.mp taken
        exact ⟨name :: before, next, after, stop, rfl, .inside first others earlier reached, lacks⟩
  · intro ⟨before, name, after, stop, parts, reached, lacks⟩
    rw [parts, walk?_append, walk?_eq_some_iff.mpr reached, Option.bind_some, walk?,
      member?_eq_none_iff.mpr lacks, Option.bind_none]

theorem pathNames_eq (nonempty : path ≠ "") : pathNames path = Text.split '.' path := by
  have : path.isEmpty = false := by simpa using nonempty
  rw [pathNames, this, if_neg Bool.false_ne_true]

theorem pathNames_append {p q : String} (hp : p ≠ "") (hq : q ≠ "") :
    pathNames (p ++ "." ++ q) = pathNames p ++ pathNames q := by
  have joined : p ++ "." ++ q ≠ "" := by simp [hp]
  rw [pathNames_eq joined, pathNames_eq hp, pathNames_eq hq]
  exact Text.split_append '.' p q

theorem madeOf_iff : MadeOf path names ↔ pathNames path = names := by
  by_cases empty : path = ""
  · rw [MadeOf, if_pos empty, empty, eq_comm]
    rfl
  · rw [MadeOf, if_neg empty, pathNames_eq empty, Text.split_eq_iff]
    constructor
    · intro ⟨joined, undotted⟩
      refine ⟨?_, joined, undotted⟩
      intro none
      rw [none, String.intercalate_nil] at joined
      exact empty joined.symm
    · intro ⟨_, joined, undotted⟩
      exact ⟨joined, undotted⟩

/-- A dotted path finds what the members of its names, taken in turn, lead to, be it null or not; it
finds nothing exactly if one of the names is not that of a member there. A path that is continued
after a dot goes on from what it found. -/
theorem lookup?_dotted (document : Json) :
    (∀ p q : String, p ≠ "" → q ≠ "" →
      (document.lookup? p = none → document.lookup? (p ++ "." ++ q) = none) ∧
      ∀ value, document.lookup? p = some value →
        document.lookup? (p ++ "." ++ q) = value.lookup? q) ∧
    ∀ path,
      (∀ value, document.lookup? path = some value ↔
        ∃ names, MadeOf path names ∧ Reaches document names value) ∧
      (document.lookup? path = none ↔ ∃ names, MadeOf path names ∧ BreaksOff document names) := by
  constructor
  · intro p q hp hq
    have goesOn : document.lookup? (p ++ "." ++ q) = (document.lookup? p).bind (·.lookup? q) := by
      simp only [lookup?, pathNames_append hp hq, walk?_append]
    constructor
    · intro missing
      rw [goesOn, missing, Option.bind_none]
    · intro value first
      rw [goesOn, first, Option.bind_some]
  · intro path
    simp only [madeOf_iff, exists_eq_left', lookup?]
    exact ⟨fun value ↦ walk?_eq_some_iff, walk?_eq_none_iff⟩

def nullBehindNameless : Json := .obj [("a", .obj [("", .obj [("b", .null)])])]

theorem lookup?_nullBehindNameless :
    "a." ≠ "" ∧ "b" ≠ "" ∧ nullBehindNameless.lookup? "a." = some (.obj [("b", .null)]) ∧
      nullBehindNameless.lookup? "a..b" = (Json.obj [("b", .null)]).lookup? "b" ∧
      nullBehindNameless.lookup? "a..b" = some .null := by
  have hp : "a." ≠ "" := by decide
  have hq : "b" ≠ "" := by decide
  have first : nullBehindNameless.lookup? "a." = some (.obj [("b", .null)]) := rfl
  have joined : nullBehindNameless.lookup? "a..b" = (Json.obj [("b", .null)]).lookup? "b" :=
    ((lookup?_dotted nullBehindNameless).1 "a." "b" hp hq).2 _ first
  exact ⟨hp, hq, first, joined, joined.trans rfl⟩

end CallSearch.Json
