import CallSearch.Calendar.Iso
import CallSearch.Store.Call

namespace CallSearch

inductive InsertError where
  | invalidTime (error : CalendarError)
  | unknownName (name : String)
  | unreadable
  | noTable
  | unsupported
  | integerTooLarge
  | conflict
deriving DecidableEq

def InsertError.message? : InsertError → Option String
  | .invalidTime error => some error.message
  | .unknownName name => some (Text.quoted name ++ " is an invalid keyword argument for CallLog")
  | .integerTooLarge => some Number.tooLargeForStore
  | _ => none

inductive Written where
  | time (t : Timestamp)
  | document (value : Json)

abbrev Draft := List (CallColumn × Written)

namespace Draft

def columnOf? (name : String) : Option CallColumn :=
  if name == "call_metadata" then some (.payload .metadata) else CallColumn.ofName? name

def isTimeColumn : CallColumn → Bool
  | .createdAt | .time _ => true
  | _ => false

/-- What a member of a record says. Texts for columns of times are read as times. -/
def writtenOf (name : String) (value : Json) : Except InsertError Written :=
  match value with
  | .str s =>
    if (columnOf? name).any isTimeColumn then
      match Iso.timestamp s with
      | .ok t => .ok (.time t)
      | .error error => .error (.invalidTime error)
    else .ok (.document value)
  | _ => .ok (.document value)

/-- Names of members that are accepted although they are no columns, and say nothing. -/
def ignored : List String := ["attribute_for", "registry", "to_dict"]

def ofRecord (record : Json) : Except InsertError Draft := do
  let said ← record.members.mapM fun (name, value) => do return (name, ← writtenOf name value)
  (said.filter fun (name, _) => !ignored.contains name).mapM fun (name, value) =>
    match columnOf? name with
    | some column => .ok (column, value)
    | none => .error (.unknownName name)

def written? (draft : Draft) (column : CallColumn) : Option Written := draft.reverse.lookup column

def document (draft : Draft) (column : CallColumn) : Json :=
  match draft.written? column with
  | some (.document value) => value
  | _ => .null

def time? (draft : Draft) (column : CallColumn) : Option Timestamp :=
  match draft.written? column with
  | some (.time t) => some t
  | _ => none

def gives (draft : Draft) (column : CallColumn) : Bool :=
  (draft.time? column).isSome || !(draft.document column).isNull

/-- A number in a column of numbers. What is not a number is nothing, and zero has no sign. -/
def storedDouble (x : Double) : Option Double :=
  if x.isNan then none else if x.isZero then some .zero else some x

def readNumber? : Json → Option (Option Double)
  | .null => some none
  | .bool b => some (some (Double.ofInt (if b then 1 else 0)))
  | .int n => (Double.ofInt? n).map some
  | .real x => some (storedDouble x)
  | .str s => (Double.ofText? s).map storedDouble
  | _ => none

def number? (draft : Draft) (column : NumberColumn) : Option Double :=
  (readNumber? (draft.document (.number column))).join

def isReadable (draft : Draft) : Bool :=
  (CallColumn.createdAt :: TimeColumn.all.map .time).all (fun c => (draft.document c).isNull)
    && NumberColumn.all.all fun c => (readNumber? (draft.document (.number c))).isSome

/-- A document of its own in a column of documents: a number without a fraction is a whole number
if it fits, and a whole number that does not fit is a floating point number. -/
def storedPayload : Json → Json
  | .int n => .ofNumber (.ofInt n)
  | .real x =>
    let x := x.inDocument
    match x.toInt? with
    | some n => if (Number.int n).fits then .int n else .real x
    | none => .real x
  | value => value

def payload? (draft : Draft) (column : PayloadColumn) : Option Json :=
  match draft.written? (.payload column) with
  | some (.document value) => some (storedPayload value)
  | _ => none

/-- Whether two drafts give values for the same columns, where a column without a value of its own
makes a difference. -/
def sameShape (a b : Draft) : Bool :=
  [CallColumn.id, .createdAt].all (fun c => a.gives c == b.gives c)
    && PayloadColumn.all.all fun c => (a.payload? c).isSome == (b.payload? c).isSome

end Draft

/-- The id of a call that is to be stored: the next free one, a given one, or none that is an id. -/
inductive RowId where
  | next
  | given (n : Int)
  | invalid

structure Row where
  id : RowId
  agent : Option String
  texts : List (TextColumn × Option String)
  draft : Draft

namespace Row

def textOf : Json → Except InsertError (Option String)
  | .null => .ok none
  | .bool b => .ok (some (if b then "1" else "0"))
  | .int n =>
    if (Number.int n).fits then .ok (some (Number.int n).storeText) else .error .integerTooLarge
  | .real x => .ok (if x.isNan then none else some x.storeText)
  | .str s => .ok (some s)
  | _ => .error .unsupported

def idOfNumber : Number → RowId
  | .int n => .given n
  | .real x =>
    match x.toInt? with
    | some n => if (Number.int n).fits then .given n else .invalid
    | none => .invalid

def idOf : Json → Except InsertError RowId
  | .null => .ok .next
  | .bool b => .ok (.given (if b then 1 else 0))
  | .int n => if (Number.int n).fits then .ok (.given n) else .error .integerTooLarge
  | .real x => .ok (if x.isNan then .next else idOfNumber (.real x))
  | .str s => .ok ((wholeTextNumber? s).elim .invalid idOfNumber)
  | _ => .error .unsupported

def ofDraft (draft : Draft) : Except InsertError Row := do
  let id ← idOf (draft.document .id)
  let agent ← textOf (draft.document .agent)
  let texts ← TextColumn.all.mapM fun c => do return (c, ← textOf (draft.document (.text c)))
  return ⟨id, agent, texts, draft⟩

def toCall (row : Row) (now : Timestamp) (id : Int) (agent : String) : Call where
  id := id
  agent := agent
  createdAt := (row.draft.time? .createdAt).getD now
  texts column := (row.texts.lookup column).join
  times column := row.draft.time? (.time column)
  numbers := row.draft.number?
  payloads := row.draft.payload?

end Row

/-- The next free id: one more than the largest, and one in an empty table. -/
def nextId (calls : List Call) : Int :=
  match (calls.map Call.id).max? with
  | some largest => largest + 1
  | none => 1

/-- Puts a row at the end of a table. It needs an owner and an id that is not taken. -/
def placeRow (now : Timestamp) (calls : List Call) (row : Row) : Except InsertError (List Call) :=
  match row.id, row.agent with
  | .next, some agent => .ok (calls ++ [row.toCall now (nextId calls) agent])
  | .given id, some agent =>
    if calls.any (·.id == id) then .error .conflict
    else .ok (calls ++ [row.toCall now id agent])
  | _, _ => .error .conflict

/-- Stores drafts of the same shape together. Drafts with ids are stored one by one, and those
without are all made rows first. -/
def placeDrafts (now : Timestamp) (table : CallTable) (drafts : List Draft) :
    Except InsertError CallTable := do
  if !drafts.all Draft.isReadable then throw .unreadable
  let some calls := table | throw .noTable
  if drafts.any (·.gives .id) then
    let place (calls : List Call) (draft : Draft) := do placeRow now calls (← Row.ofDraft draft)
    return some (← drafts.foldlM place calls)
  else
    return some (← (← drafts.mapM Row.ofDraft).foldlM (placeRow now) calls)

/-- Stores records, all of them or none. A table that is lost takes no call. -/
def insertRecords (now : Timestamp) (table : CallTable) (records : List Json) :
    Except InsertError CallTable := do
  let drafts ← records.mapM Draft.ofRecord
  (drafts.splitBy Draft.sameShape).foldlM (placeDrafts now) table

end CallSearch
