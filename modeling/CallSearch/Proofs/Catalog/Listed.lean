import CallSearch.Catalog.Build
import CallSearch.Proofs.Compile.Check
import CallSearch.Proofs.Store.Key
import CallSearch.Store.Insert

namespace CallSearch

namespace Catalog

variable {records : List Json} {field : Field} {key : String}

theorem basic_subkey : ∀ basic ∈ basicFields, basic.subkey = none := by
  decide +kernel

theorem exists_basicField (records : List Json) (basic : Field) :
    ∃ samples count distinct, basicField records basic =
      { basic with samples := samples, count := count, distinct := distinct } := by
  unfold basicField
  dsimp only
  split_ifs
  · exact ⟨_, _, _, rfl⟩
  · exact ⟨_, _, _, rfl⟩

theorem path_basicField (records : List Json) (basic : Field) :
    (basicField records basic).path = basic.path := by
  obtain ⟨samples, count, distinct, same⟩ := exists_basicField records basic
  rw [same]

theorem cut_member {column : String} (free : '.' ∉ column.toList) (name : String) :
    Text.cut '.' (column ++ "." ++ name) = (column, some name) := by
  have text : (column ++ "." ++ name).toList = column.toList ++ '.' :: name.toList := by simp
  simp [Text.cut, text, Text.cutFirst_append _ free]

theorem column_of_mem_sources : ∀ source ∈ payloadSources,
    ∃ column : PayloadColumn, source.column = column.name := by
  simp only [payloadSources, List.forall_mem_cons]
  exact ⟨⟨.metadata, rfl⟩, ⟨.transcription, rfl⟩, ⟨.metrics, rfl⟩, List.forall_mem_nil _⟩

theorem listed_column (listed : field ∈ build records) (named : field.subkey = some key) :
    ∃ column : PayloadColumn, field.column = column.name := by
  rcases List.mem_append.mp listed with basic | member
  · obtain ⟨original, among, rfl⟩ := List.mem_map.mp basic
    have none := basic_subkey original among
    rw [Field.subkey, path_basicField] at named
    rw [Field.subkey, named] at none
    cases none
  · obtain ⟨source, among, inside⟩ := List.mem_flatMap.mp member
    obtain ⟨name, -, rfl⟩ := List.mem_map.mp inside
    obtain ⟨column, same⟩ := column_of_mem_sources source among
    have free : '.' ∉ source.column.toList := same ▸ column.undotted
    exact ⟨column, (congrArg Prod.fst (cut_member free name)).trans same⟩

end Catalog

namespace Compile

open Expression

def hasKey (column key value : String) : Condition := ⟨column, "json_exists", value, some key⟩

theorem exists_registered (column : PayloadColumn) :
    ∃ registered, Column.ofName? column.name = some registered ∧ registered.type = .json := by
  cases column with
  | metadata => exact ⟨.metadata, by cbv, rfl⟩
  | transcription => exact ⟨.transcription, by cbv, rfl⟩
  | metrics => exact ⟨.metrics, by cbv, rfl⟩

theorem condition_hasKey (types : ColumnTypes) (now : Timestamp) (column : PayloadColumn)
    (key value : String) :
    condition types now (hasKey column.name key value) =
      if key = "" then .error (.fault (.subkeyMissing column.name))
      else .ok [⟨render ⟨column.name, key, false⟩, .notNull, .null⟩] := by
  obtain ⟨registered, known, json⟩ := exists_registered column
  have found : Operation.ofName? "json_exists" = some .jsonExists := by cbv
  have allowed : (hasKey column.name key value).allowedOn registered = true := by
    simp [Condition.allowedOn, hasKey, found, json, ColumnType.operations]
  have valued : (hasKey column.name key value).hasValue = true := by
    simp [Condition.hasValue, hasKey, found, Operation.needsValue]
  have keyed : (hasKey column.name key value).hasSubkey = !key.isEmpty := rfl
  rw [condition_eq known found, Condition.check_eq known, allowed, if_pos rfl,
    Condition.checkParts, valued, keyed, json]
  by_cases empty : key = ""
  · subst empty
    rfl
  · have : key.isEmpty = false := by simpa using empty
    rw [if_neg empty, this]
    rfl

end Compile

open Compile

/-- The rule of a listed key is refused if the key is empty. Otherwise it is one predicate, which
the store runs, and which finds the calls of the agent that have something where the key is read to
lead. These are the calls with a value under the key itself exactly if the key is a name: one with a
dot is read as a path, and one that ends like a number's expression loses this end. -/
theorem listed_key_found {records : List Json} {field : Field} {key : String}
    (listed : field ∈ Catalog.build records) (named : field.subkey = some key)
    (plain : Json.isPlainName key) (types : ColumnTypes) (now : Timestamp) (value agent : String)
    (calls : List Call) :
    ∃ column : PayloadColumn, field.column = column.name ∧
      (key = "" → condition types now (hasKey field.column key value) =
        .error (.fault (.subkeyMissing field.column))) ∧
      (key ≠ "" → ∃ p chosen, condition types now (hasKey field.column key value) = .ok [p] ∧
        CallTable.select (some calls) [Predicate.owner agent, p] = .ok chosen ∧
        ∀ call, call ∈ chosen ↔
          call ∈ calls ∧ call.agent = agent ∧ Finds (call.payloads column) key) ∧
      (IsName key ↔ key ≠ "" ∧ ∀ payload : Option Json, (payload.getD .null).NulFree →
        (Finds payload key ↔ HasValue payload key)) := by
  obtain ⟨column, same⟩ := Catalog.listed_column listed named
  have compiled := condition_hasKey types now column key value
  rw [← same] at compiled
  refine ⟨column, same, fun empty ↦ ?_, fun nonempty ↦ ?_, isName_iff plain⟩
  · rw [compiled, if_pos empty]
  · rw [if_neg nonempty] at compiled
    obtain ⟨chosen, selected, found⟩ := select_key nonempty plain column agent calls
    rw [← same] at selected
    exact ⟨_, chosen, compiled, selected, found⟩

def keyRecord (key : String) : Json :=
  .obj [("agent_id", .str "a"), ("metadata", .obj [(key, .int 1)])]

def keyField (key : String) : Field :=
  Catalog.memberField ⟨"metadata", .metadata⟩ [[(key, .int 1)]] key

theorem keyField_listed (key : String) :
    ∃ call, insertRecords (.startOf default) (some []) [keyRecord key] = .ok (some [call]) ∧
      call.agent = "a" ∧ call.payloads .metadata = some (.obj [(key, .int 1)]) ∧
      keyField key ∈ Catalog.build [call.toJson] ∧ (keyField key).column = "metadata" ∧
      (keyField key).subkey = some key := by
  have cut : Text.cut '.' ("metadata" ++ "." ++ key) = ("metadata", some key) :=
    Catalog.cut_member (by decide) key
  refine ⟨_, rfl, rfl, rfl, ?_, congrArg Prod.fst cut, congrArg Prod.snd cut⟩
  refine List.mem_append_right _ (List.mem_flatMap.mpr
    ⟨⟨"metadata", .metadata⟩, List.mem_cons_self, ?_⟩)
  exact List.mem_map.mpr ⟨key, List.mem_cons_self, rfl⟩

/-- A key of one word is found. -/
theorem listed_key_found_intent :
    ∃ call, insertRecords (.startOf default) (some []) [keyRecord "intent"] = .ok (some [call]) ∧
      keyField "intent" ∈ Catalog.build [call.toJson] ∧
      (keyField "intent").subkey = some "intent" ∧ Json.isPlainName "intent" ∧ IsName "intent" ∧
      ∃ p chosen, condition [] (.startOf default) (hasKey "metadata" "intent" "") = .ok [p] ∧
        CallTable.select (some [call]) [Predicate.owner "a", p] = .ok chosen ∧
        call ∈ chosen := by
  obtain ⟨call, inserted, agent, payload, listed, column, subkey⟩ := keyField_listed "intent"
  have plain : Json.isPlainName "intent" := by decide
  obtain ⟨own, same, -, found, names⟩ :=
    listed_key_found listed subkey plain [] (.startOf default) "" "a" [call]
  have name : IsName "intent" := ⟨by decide, by decide, by decide⟩
  obtain ⟨p, chosen, compiled, selected, members⟩ := found name.nonempty
  rw [column] at same compiled
  have metadata : own = .metadata := by
    cases own with
    | metadata => rfl
    | transcription | metrics => exact absurd same (by decide)
  have value : HasValue (call.payloads own) "intent" := by
    rw [metadata, payload]
    exact ⟨.int 1, rfl, id⟩
  have free : ((call.payloads own).getD .null).NulFree := by
    rw [metadata, payload]
    exact fun member among ↦ by rw [List.mem_singleton.mp among]; decide
  have finds := ((names.mp name).2 _ free).mpr value
  exact ⟨call, inserted, listed, subkey, plain, name, p, chosen, compiled, selected,
    (members call).mpr ⟨List.mem_cons_self, agent, finds⟩⟩

/-- A key with a dot is listed and not found, though the call has a value under it. -/
theorem dotted_key_not_found :
    ∃ call, insertRecords (.startOf default) (some []) [keyRecord "a.b"] = .ok (some [call]) ∧
      call.agent = "a" ∧ keyField "a.b" ∈ Catalog.build [call.toJson] ∧
      (keyField "a.b").column = "metadata" ∧ (keyField "a.b").subkey = some "a.b" ∧
      HasValue (call.payloads .metadata) "a.b" ∧
      ∃ p, condition [] (.startOf default) (hasKey "metadata" "a.b" "") = .ok [p] ∧
        CallTable.select (some [call]) [Predicate.owner "a", p] = .ok [] := by
  obtain ⟨call, inserted, agent, payload, listed, column, subkey⟩ := keyField_listed "a.b"
  have value : HasValue (call.payloads .metadata) "a.b" := by
    rw [payload]
    exact ⟨.int 1, rfl, id⟩
  have nonempty : "a.b" ≠ "" := by decide
  obtain ⟨chosen, selected, found⟩ := select_key nonempty (by decide) .metadata "a" [call]
  have compiled := condition_hasKey [] (.startOf default) .metadata "a.b" ""
  rw [if_neg nonempty] at compiled
  have read : keyPath "a.b" = some ["a", "b"] := by decide +kernel
  have nothing : ¬Finds (call.payloads .metadata) "a.b" := by
    rw [payload, Finds, read]
    rintro ⟨value, walked, -⟩
    cases walked
  have none : chosen = [] := List.eq_nil_iff_forall_not_mem.mpr fun other among ↦ by
    obtain ⟨inside, -, finds⟩ := (found other).mp among
    rw [List.mem_singleton.mp inside] at finds
    exact nothing finds
  rw [none] at selected
  exact ⟨call, inserted, agent, listed, column, subkey, value, _, compiled, selected⟩

end CallSearch
