import Mathlib.Data.List.Basic
import CallSearch.Predicate.Expression
import CallSearch.Proofs.Text

namespace CallSearch.Expression

open Text (isWordChar isWordStart)

variable {suffix front key : List Char}

theorem suffix_append_iff (free : '.' ∉ suffix) :
    suffix <:+ front ++ '.' :: key ↔ suffix <:+ key := by
  have tail : '.' :: key <:+ front ++ '.' :: key := List.suffix_append front _
  refine ⟨fun ends ↦ ?_, fun ends ↦ (ends.trans (List.suffix_cons '.' key)).trans tail⟩
  rcases List.suffix_or_suffix_of_suffix ends tail with short | long
  · rcases List.suffix_cons_iff.mp short with same | inside
    · exact absurd (same ▸ List.mem_cons_self) free
    · exact inside
  · exact absurd (long.subset List.mem_cons_self) free

theorem dropSuffix?_append (free : '.' ∉ suffix) :
    dropSuffix? suffix (front ++ '.' :: key) =
      (dropSuffix? suffix key).map fun rest ↦ front ++ '.' :: rest := by
  by_cases ends : suffix <:+ key
  · have fits := ends.length_le
    have cut : (front ++ '.' :: key).length - suffix.length =
        front.length + (key.length - suffix.length + 1) := by
      simp only [List.length_append, List.length_cons]
      omega
    rw [dropSuffix?, dropSuffix?, if_pos (List.isSuffixOf_iff_suffix.mpr ends),
      if_pos (List.isSuffixOf_iff_suffix.mpr ((suffix_append_iff free).mpr ends)), cut,
      List.take_length_add_append, List.take_succ_cons, Option.map_some]
  · have whole : ¬suffix <:+ front ++ '.' :: key := mt (suffix_append_iff free).mp ends
    simp [dropSuffix?, List.isSuffixOf_iff_suffix, ends, whole]

theorem dropSuffix?_self (front : List Char) :
    dropSuffix? suffix (front ++ suffix) = some front := by
  have ends : suffix <:+ front ++ suffix := List.suffix_append front suffix
  simp [dropSuffix?, List.isSuffixOf_iff_suffix, ends]

theorem dropSuffix?_eq_none_iff : dropSuffix? suffix front = none ↔ ¬suffix <:+ front := by
  simp [dropSuffix?, List.isSuffixOf_iff_suffix]

section Identifier

variable {cs : List Char} {d : Char}

theorem mem_identifier (identifier : isIdentifier cs) (inside : d ∈ cs) :
    isWordChar d ∨ d = '\n' := by
  simp only [isIdentifier, Bool.and_eq_true, List.all_eq_true] at identifier
  obtain ⟨-, word⟩ := identifier
  split_ifs at word with feed
  · have parts := List.dropLast_append_getLast? _ (Option.mem_def.mpr (beq_iff_eq.mp feed))
    rw [← parts, List.mem_append, List.mem_singleton] at inside
    exact inside.imp_left (word d)
  · exact .inl (word d inside)

theorem isIdentifier_of_word (start : cs.head?.any isWordStart)
    (word : ∀ d ∈ cs, isWordChar d) : isIdentifier cs := by
  have last : cs.getLast? ≠ some '\n' := fun feed ↦
    absurd (word _ (List.mem_of_getLast? feed)) (by decide)
  simp [isIdentifier, last, start, List.all_eq_true.mpr word]

theorem undotted_of_identifier (identifier : isIdentifier cs) : '.' ∉ cs := by
  intro dot
  exact absurd (mem_identifier identifier dot) (by decide)

theorem notNumeric_of_identifier (identifier : isIdentifier cs) : ¬numericSuffix <:+ cs := by
  intro numeric
  have space : ' ' ∈ cs := numeric.subset (by decide)
  exact absurd (mem_identifier identifier space) (by decide)

end Identifier

/-- What is read of a key: the key without the end that marks a number. -/
def bareKey (key : String) : List Char :=
  (dropSuffix? numericSuffix key.toList).getD key.toList

def endsNumeric (key : String) : Bool := (dropSuffix? numericSuffix key.toList).isSome

theorem bareKey_name {key : String} (notNumeric : ¬numericSuffix <:+ key.toList) :
    bareKey key = key.toList := by
  rw [bareKey, dropSuffix?_eq_none_iff.mpr notNumeric, Option.getD_none]

theorem endsNumeric_iff {key : String} : endsNumeric key ↔ numericSuffix <:+ key.toList := by
  simp [endsNumeric, dropSuffix?, List.isSuffixOf_iff_suffix]

section Written

variable {column key : String} (identifier : isIdentifier column.toList)

include identifier

theorem parse_member (some : key ≠ "") :
    parse (render ⟨column, key, false⟩) =
      .ok ⟨column, if (bareKey key).isEmpty then none else String.ofList (bareKey key),
        endsNumeric key⟩ := by
  have free := undotted_of_identifier identifier
  have written : render ⟨column, key, false⟩ =
      String.ofList (column.toList ++ '.' :: key.toList) := by
    have : key.isEmpty = false := by simpa using some
    simp [render, this]
  have stripped : dropSuffix? numericSuffix (column.toList ++ '.' :: key.toList) =
      (dropSuffix? numericSuffix key.toList).map fun rest ↦ column.toList ++ '.' :: rest :=
    dropSuffix?_append (by decide)
  have body : (dropSuffix? numericSuffix (column.toList ++ '.' :: key.toList)).getD
      (column.toList ++ '.' :: key.toList) = column.toList ++ '.' :: bareKey key := by
    rw [stripped, bareKey]
    cases dropSuffix? numericSuffix key.toList <;> rfl
  have numeric : (dropSuffix? numericSuffix (column.toList ++ '.' :: key.toList)).isSome =
      endsNumeric key := by
    rw [stripped, Option.isSome_map, endsNumeric]
  rw [written, parse, String.toList_ofList]
  simp only [body, Text.cutFirst_append _ free, identifier, if_true, numeric, String.ofList_toList,
    Option.bind_some]

theorem parse_column {subkey : Option String} (whole : subkey.any (!·.isEmpty) = false)
    (numeric : Bool) : parse (render ⟨column, subkey, numeric⟩) = .ok ⟨column, none, numeric⟩ := by
  have free := undotted_of_identifier identifier
  have notNumeric := notNumeric_of_identifier identifier
  have written : render ⟨column, subkey, numeric⟩ =
      String.ofList (column.toList ++ if numeric then numericSuffix else []) := by
    cases subkey with
    | none => simp [render]
    | some key =>
      have : key.isEmpty = true := by simpa using whole
      simp [render, this]
  have stripped : dropSuffix? numericSuffix (column.toList ++ if numeric then numericSuffix else []) =
      if numeric then some column.toList else none := by
    cases numeric with
    | true => exact dropSuffix?_self column.toList
    | false => simpa using dropSuffix?_eq_none_iff.mpr notNumeric
  rw [written, parse, String.toList_ofList, stripped]
  cases numeric <;> simp [Text.cutFirst_none free, identifier]

theorem parse_member_numeric (some : key ≠ "") :
    parse (render ⟨column, key, true⟩) = .ok ⟨column, key, true⟩ := by
  have free := undotted_of_identifier identifier
  have nonempty : key.isEmpty = false := by simpa using some
  have written : render ⟨column, key, true⟩ =
      String.ofList (column.toList ++ '.' :: key.toList ++ numericSuffix) := by
    simp [render, nonempty]
  rw [written, parse, String.toList_ofList, dropSuffix?_self]
  simp [Text.cutFirst_append _ free, identifier, some]

end Written

/-- Whether the column of an expression is an identifier, and its key is not the empty one. -/
structure Proper (e : Expression) : Prop where
  identifier : isIdentifier e.column.toList
  keyed : e.subkey ≠ some ""

/-- Whether an expression is a number, or has no key that ends as if it were one. -/
def Unmarked (e : Expression) : Prop :=
  e.numeric ∨ ∀ key ∈ e.subkey, ¬numericSuffix <:+ key.toList

theorem Proper.parse_render {e : Expression} (proper : e.Proper) :
    ∃ read, parse (render e) = .ok read ∧ (read = e ↔ e.Unmarked) := by
  obtain ⟨column, subkey, numeric⟩ := e
  obtain ⟨identifier, keyed⟩ := proper
  cases subkey with
  | none =>
    refine ⟨_, parse_column identifier rfl numeric, ?_⟩
    simp [Unmarked]
  | some key =>
    have nonempty : key ≠ "" := fun empty ↦ keyed (congrArg some empty)
    cases numeric with
    | true =>
      refine ⟨_, parse_member_numeric identifier nonempty, ?_⟩
      simp [Unmarked]
    | false =>
      refine ⟨_, parse_member identifier nonempty, ?_⟩
      by_cases marked : numericSuffix <:+ key.toList
      · have ends := endsNumeric_iff.mpr marked
        simp [Unmarked, marked, ends]
      · have ends : endsNumeric key = false := by simpa using mt endsNumeric_iff.mp marked
        simp [Unmarked, marked, ends, bareKey_name marked, nonempty]

theorem proper_of_parse {s : String} {e : Expression} (read : parse s = .ok e) :
    e.Proper ∧ e.Unmarked := by
  rw [parse] at read
  rcases Text.cutFirst_cases '.' ((dropSuffix? numericSuffix s.toList).getD s.toList) with
    ⟨free, cut⟩ | ⟨column, key, free, body, cut⟩
  · simp only [cut] at read
    split_ifs at read with identifier
    cases read
    exact ⟨⟨by simpa using identifier, by simp⟩, .inr (by simp)⟩
  · simp only [cut] at read
    split_ifs at read with identifier
    cases read
    by_cases empty : key = []
    · exact ⟨⟨by simpa using identifier, by simp [empty]⟩, .inr (by simp [empty])⟩
    · refine ⟨⟨by simpa using identifier, by simp [empty]⟩, ?_⟩
      cases stripped : dropSuffix? numericSuffix s.toList with
      | some front => exact .inl rfl
      | none =>
        have whole : ¬numericSuffix <:+ s.toList := dropSuffix?_eq_none_iff.mp stripped
        rw [stripped, Option.getD_none] at body
        rw [body, suffix_append_iff (by decide)] at whole
        exact .inr (by simpa [empty] using whole)

/-- Every expression for a column of letters, digits and underscores is read back from its text, and
as it was exactly if it is a number or its key does not end as if it were one. What was read of any
text stays the same when it is written and read again. -/
theorem parse_render_iff :
    (∀ e : Expression, e.column.toList.head?.any isWordStart →
        (∀ d ∈ e.column.toList, isWordChar d) → e.subkey ≠ some "" →
      ∃ read, parse (render e) = .ok read ∧
        (read = e ↔ e.numeric ∨ ∀ key ∈ e.subkey, ¬" (numeric)".toList <:+ key.toList)) ∧
      ∀ s e, parse s = .ok e → parse (render e) = .ok e := by
  constructor
  · intro e start word keyed
    exact Proper.parse_render ⟨isIdentifier_of_word start word, keyed⟩
  · intro s e parsed
    obtain ⟨proper, unmarked⟩ := proper_of_parse parsed
    obtain ⟨read, written, same⟩ := proper.parse_render
    rw [written, same.mpr unmarked]

def markedMember : Expression := ⟨"metadata", some "cost (numeric)", false⟩

/-- It is read back as another one; a text that has the end twice is read and written again. -/
theorem parse_render_markedMember :
    (∃ read, parse (render markedMember) = .ok read ∧ read ≠ markedMember) ∧
      ∃ e, parse "metadata.cost (numeric) (numeric)" = .ok e ∧ parse (render e) = .ok e := by
  obtain ⟨written, again⟩ := parse_render_iff
  constructor
  · have word : ∀ d ∈ markedMember.column.toList, isWordChar d :=
      List.all_eq_true.mp (by decide +kernel)
    obtain ⟨read, parsed, same⟩ := written markedMember (by decide +kernel) word (by decide)
    refine ⟨read, parsed, fun kept ↦ ?_⟩
    rcases same.mp kept with numeric | unmarked
    · exact Bool.false_ne_true numeric
    · exact unmarked _ rfl ⟨"cost".toList, by decide⟩
  · have parsed : parse "metadata.cost (numeric) (numeric)" =
        .ok ⟨"metadata", some "cost (numeric)", true⟩ := by decide +kernel
    exact ⟨_, parsed, again _ _ parsed⟩

end CallSearch.Expression
