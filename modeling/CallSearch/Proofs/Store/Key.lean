import CallSearch.Proofs.Predicate.Expression
import CallSearch.Proofs.Store.Cell
import CallSearch.Proofs.Store.Match
import CallSearch.Proofs.Store.Member

namespace CallSearch

open Expression

/-- The path through a payload that a key is read as; none if it is read as the payload itself. -/
def keyPath (key : String) : Option (List String) :=
  if (bareKey key).isEmpty then none else some (Text.split '.' (String.ofList (bareKey key)))

/-- Whether there is something in a payload where a key is read to lead. -/
def Finds (payload : Option Json) (key : String) : Prop :=
  match keyPath key with
  | none => payload.isSome
  | some path => ∃ value, (payload.getD .null).storedWalk? path = some value ∧ ¬value.IsNothing

/-- Whether a payload is an object with a value under this very key. -/
def HasValue (payload : Option Json) (key : String) : Prop :=
  ∃ value, (payload.getD .null).member? key = some value ∧ ¬value.IsNothing

theorem Source.isNull_cell (source : Source) (call : Call) :
    (source.cell call).isNull = (source.plainCell call).isNull := by
  rw [Source.cell]
  split_ifs
  · exact Cell.isNull_asNumber _
  · rfl

theorem Call.isNull_payload (call : Call) (column : PayloadColumn) :
    (call.cell (.payload column)).isNull = (call.payloads column).isNone := by
  rw [Call.cell]
  split
  · next absent => rw [absent]; rfl
  · next present => rw [present]; rfl
  · next present => rw [present]; split_ifs <;> rfl
  · next present => rw [present]; rfl

section Key

variable {key : String} {column : PayloadColumn} {call : Call}

/-- A key that is read as the name of a member. -/
structure IsName (key : String) : Prop where
  nonempty : key ≠ ""
  undotted : '.' ∉ key.toList
  notNumeric : ¬numericSuffix <:+ key.toList

theorem IsName.of_word (nonempty : key ≠ "") (word : ∀ d ∈ key.toList, Text.isWordChar d) :
    IsName key where
  nonempty := nonempty
  undotted dotted := absurd (word _ dotted) (by decide)
  notNumeric numeric := by
    have space : ' ' ∈ key.toList := numeric.subset (by decide)
    exact absurd (word _ space) (by decide)

theorem isPlainName_word (word : ∀ d ∈ key.toList, Text.isWordChar d) : Json.isPlainName key := by
  rw [Json.isPlainName, List.all_eq_true]
  intro c inside
  have letter := word c inside
  simp only [Bool.and_eq_true, bne_iff_ne]
  refine ⟨⟨?_, ?_⟩, ?_⟩ <;>
  · rintro rfl
    exact absurd letter (by decide)

theorem bareKey_isPrefix (key : String) : bareKey key <+: key.toList := by
  unfold bareKey dropSuffix?
  split_ifs
  · exact List.take_prefix _ _
  · exact List.prefix_rfl

theorem length_bareKey_lt (numeric : numericSuffix <:+ key.toList) :
    (bareKey key).length < key.toList.length := by
  have positive : 0 < numericSuffix.length := by decide
  have fits := numeric.length_le
  simp only [bareKey, dropSuffix?, if_pos (List.isSuffixOf_iff_suffix.mpr numeric),
    Option.getD_some, List.length_take]
  omega

theorem keyPath_cons {path : List String} (read : keyPath key = some path) :
    ∃ first rest, path = first :: rest ∧
      (bareKey key).takeWhile (· != '.') = first.toList := by
  obtain ⟨pieces, split⟩ := Text.splitChars_eq '.' (bareKey key)
  rw [keyPath] at read
  split_ifs at read
  cases read
  refine ⟨_, pieces.map String.ofList, ?_, String.toList_ofList.symm⟩
  rw [Text.split, String.toList_ofList, split, List.map_cons]

theorem IsName.of_takeWhile (nonempty : key ≠ "")
    (first : (bareKey key).takeWhile (· != '.') = key.toList) : IsName key where
  nonempty := nonempty
  undotted dotted := by
    rw [← first] at dotted
    simpa using List.mem_takeWhile_imp dotted
  notNumeric numeric := by
    have shorter := length_bareKey_lt numeric
    have := (List.takeWhile_prefix (· != '.') : _ <+: bareKey key).length_le
    rw [first] at this
    omega

theorem IsName.keyPath_eq (name : IsName key) : keyPath key = some [key] := by
  have nonempty : key.toList ≠ [] := by simpa using name.nonempty
  rw [keyPath, bareKey_name name.notNumeric, if_neg (by simpa using nonempty), Text.split,
    String.toList_ofList, Text.splitChars_free name.undotted, List.map_singleton,
    String.ofList_toList]

theorem IsName.endsNumeric_eq (name : IsName key) : endsNumeric key = false := by
  simpa using mt endsNumeric_iff.mp name.notNumeric

theorem isPlainName_split (plain : Json.isPlainName key) {part : List Char}
    (inside : part ⊆ key.toList) :
    (Text.split '.' (String.ofList part)).all Json.isPlainName := by
  rw [Json.isPlainName, List.all_eq_true] at plain
  refine List.all_eq_true.mpr fun name among ↦ ?_
  obtain ⟨piece, cut, rfl⟩ := List.mem_map.mp among
  rw [Json.isPlainName, List.all_eq_true, String.toList_ofList]
  rw [String.toList_ofList] at cut
  intro c hc
  exact plain c (inside (Text.mem_of_mem_splitChars cut hc).1)

theorem isPlainName_keyPath (plain : Json.isPlainName key) {path : List String}
    (read : keyPath key = some path) : path.all Json.isPlainName := by
  rw [keyPath] at read
  split_ifs at read
  cases read
  exact isPlainName_split plain (bareKey_isPrefix key).subset

theorem PayloadColumn.undotted (column : PayloadColumn) : '.' ∉ column.name.toList := by
  cases column <;> decide

theorem read_key (nonempty : key ≠ "") (column : PayloadColumn) :
    ∃ e, parse (render ⟨column.name, key, false⟩) = .ok e ∧
      Source.ofExpression e = .ok ⟨.payload column, keyPath key, endsNumeric key⟩ := by
  have identifier : isIdentifier column.name.toList := by cases column <;> decide
  have known : CallColumn.ofName? column.name = some (.payload column) := by cases column <;> rfl
  refine ⟨_, parse_member identifier nonempty, ?_⟩
  rw [Source.ofExpression, known, keyPath]
  cases bare : bareKey key with
  | nil => rfl
  | cons c rest => simp

theorem ofPredicate_key (nonempty : key ≠ "") (column : PayloadColumn) :
    Test.ofPredicate ⟨render ⟨column.name, key, false⟩, .notNull, .null⟩ =
      .ok (.notNull ⟨.payload column, keyPath key, endsNumeric key⟩) := by
  obtain ⟨e, parsed, source⟩ := read_key nonempty column
  rw [Test.ofPredicate, Predicate.expression, parsed]
  simp only [Except.mapError, bind, Except.bind, source]
  rfl

theorem isNull_key (plain : Json.isPlainName key) (numeric : Bool) :
    (Source.cell ⟨.payload column, keyPath key, numeric⟩ call).isNull = false ↔
      Finds (call.payloads column) key := by
  rw [Source.isNull_cell, Finds]
  cases read : keyPath key with
  | none =>
    have whole : Source.plainCell ⟨.payload column, none, numeric⟩ call =
      call.cell (.payload column) := rfl
    rw [whole, Call.isNull_payload]
    simp
  | some path =>
    have member : Source.plainCell ⟨.payload column, some path, numeric⟩ call =
        (((call.payloads column).getD .null).memberText? path).elim .null .text := rfl
    rw [member, Json.memberText?, if_pos (isPlainName_keyPath plain read)]
    dsimp only
    generalize ((call.payloads column).getD .null).storedWalk? path = found
    cases found with
    | none => simp [Cell.isNull]
    | some value =>
      have said : value.storeText? = none ↔ value.IsNothing := Json.storeText?_eq_none_iff
      cases text : value.storeText? <;> simp_all [Cell.isNull]

theorem select_key (nonempty : key ≠ "") (plain : Json.isPlainName key) (column : PayloadColumn)
    (agent : String) (calls : List Call) :
    ∃ chosen, CallTable.select (some calls)
        [Predicate.owner agent, ⟨render ⟨column.name, key, false⟩, .notNull, .null⟩] = .ok chosen ∧
      ∀ call, call ∈ chosen ↔
        call ∈ calls ∧ call.agent = agent ∧ Finds (call.payloads column) key := by
  refine ⟨_, CallTable.select_owned (ofPredicate_key nonempty column) rfl (fun _ ↦ rfl) agent calls,
    fun call ↦ ?_⟩
  rw [List.mem_filter, ← isNull_key plain (endsNumeric key)]
  simp

theorem isPlainName_nul (plain : Json.isPlainName key) : '\x00' ∉ key.toList := fun inside ↦ by
  simpa using List.all_eq_true.mp plain '\x00' inside

theorem storedWalk?_single {value found : Json} {first : String} {rest : List String}
    (free : '\x00' ∉ key.toList)
    (walked : (Json.obj [(key, value)]).storedWalk? (first :: rest) = some found) : first = key := by
  have nulFree : (Json.obj [(key, value)]).NulFree := fun member among ↦ by
    rwa [List.mem_singleton.mp among]
  rw [Json.storedWalk?, Json.storedMember?_eq nulFree, Json.member?, List.lookup_cons] at walked
  by_contra differs
  rw [beq_false_of_ne differs] at walked
  cases walked

/-- A key that leads to the value under the key itself in all payloads is a name. -/
theorem IsName.of_leads (plain : Json.isPlainName key) (nonempty : key ≠ "")
    (leads : ∀ payload : Option Json, (payload.getD .null).NulFree →
      (Finds payload key ↔ HasValue payload key)) : IsName key := by
  have nul := isPlainName_nul plain
  cases read : keyPath key with
  | none =>
    have finds : Finds (some .null) key := by simp [Finds, read]
    obtain ⟨value, absent, -⟩ :=
      (leads (some .null) fun _ among ↦ absurd among List.not_mem_nil).mp finds
    cases absent
  | some path =>
    have free : ((some (Json.obj [(key, .int 1)])).getD .null).NulFree := fun member among ↦ by
      rwa [List.mem_singleton.mp among]
    have value : HasValue (some (.obj [(key, .int 1)])) key :=
      ⟨.int 1, by simp [Json.member?], id⟩
    have found := (leads _ free).mpr value
    rw [Finds, read] at found
    obtain ⟨found, walked, -⟩ := found
    obtain ⟨first, rest, rfl, start⟩ := keyPath_cons read
    exact .of_takeWhile nonempty (start.trans (congrArg String.toList (storedWalk?_single nul walked)))

theorem IsName.finds_iff (name : IsName key) {payload : Option Json}
    (free : (payload.getD .null).NulFree) : Finds payload key ↔ HasValue payload key := by
  simp only [Finds, name.keyPath_eq, HasValue, ← Json.storedMember?_eq free, Json.storedWalk?]
  simp

theorem isName_iff (plain : Json.isPlainName key) :
    IsName key ↔ key ≠ "" ∧ ∀ payload : Option Json, (payload.getD .null).NulFree →
      (Finds payload key ↔ HasValue payload key) :=
  ⟨fun name ↦ ⟨name.nonempty, fun _ free ↦ name.finds_iff free⟩,
    fun ⟨nonempty, leads⟩ ↦ .of_leads plain nonempty leads⟩

end Key

end CallSearch
