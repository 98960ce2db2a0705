import Mathlib
import CallSearch.Proofs.Search.Parse
import CallSearch.Proofs.Text
import CallSearch.Search.Render

namespace CallSearch

open Text (isBlank isWordChar isWordStart)

/-- Whether a condition can be said by a term of a search: its column is an identifier, its subkey a
name, its operation one of the four comparisons, and its value has no quotes and no blanks but
spaces. A value without spaces is written as it is, so that for equality, which has no sign, it must
not begin with the sign of another comparison. -/
structure Condition.Sayable (c : Condition) : Prop where
  identifier : c.column.toList.head?.any isWordStart ∧ ∀ d ∈ c.column.toList, isWordChar d
  name : ∀ subkey ∈ c.subkey, subkey ≠ "" ∧ ∀ d ∈ subkey.toList, isWordChar d
  compares : c.operation ∈ ["equals", "greater_than", "less_than", "not_equals"]
  spaced : ∀ d ∈ c.value.toList, Search.isQuote d = false ∧ (isBlank d → d = ' ')
  unsigned : c.operation = "equals" → ' ' ∉ c.value.toList →
    ¬['>'] <+: c.value.toList ∧ ¬['<'] <+: c.value.toList ∧ ¬['!', '='] <+: c.value.toList

namespace Search

variable {c : Condition} {column subkey value rest : List Char} {d : Char}

theorem isWordChar_bounds (h : isWordChar d) : 48 ≤ d.toNat ∧ d.toNat < 123 := by
  simp only [isWordChar, Char.isAlphanum, Char.isAlpha, Char.isUpper, Char.isLower, Char.isDigit,
    Bool.or_eq_true, Bool.and_eq_true, decide_eq_true_eq, beq_iff_eq, ge_iff_le,
    UInt32.le_iff_toNat_le] at h
  rcases h with ((h | h) | h) | rfl
  · exact ⟨Nat.le_trans (by decide) h.1, Nat.lt_of_le_of_lt h.2 (by decide)⟩
  · exact ⟨Nat.le_trans (by decide) h.1, Nat.lt_of_le_of_lt h.2 (by decide)⟩
  · exact ⟨Nat.le_trans (by decide) h.1, Nat.lt_of_le_of_lt h.2 (by decide)⟩
  · decide

theorem isWordChar_plain (h : isWordChar d) :
    isBlank d = false ∧ isQuote d = false ∧ d ≠ '.' ∧ d ≠ ':' := by
  obtain ⟨low, high⟩ := isWordChar_bounds h
  exact of_toNat (fun d ↦ isWordChar d → isBlank d = false ∧ isQuote d = false ∧ d ≠ '.' ∧ d ≠ ':')
    48 123 (by decide +kernel) low high h

section Value

theorem isQuoted_quoted (value : List Char) : isQuoted ('\x22' :: (value ++ ['\x22'])) := by
  have last : ('\x22' :: (value ++ ['\x22'])).getLast? = some '\x22' := by
    rw [← List.cons_append, List.getLast?_concat]
  simp [isQuoted, last, isQuote]

theorem unquote_quoted (value : List Char) : unquote ('\x22' :: (value ++ ['\x22'])) = value := by
  have whole : Text.stripChars isBlank ('\x22' :: (value ++ ['\x22'])) =
      '\x22' :: (value ++ ['\x22']) := by
    refine Text.stripChars_of_ends (fun d hd ↦ ?_) fun d hd ↦ ?_
    · cases hd
      decide
    · rw [← List.cons_append, List.getLast?_concat] at hd
      cases hd
      decide
  rw [unquote, whole, if_pos (isQuoted_quoted value), List.drop_one, List.tail_cons,
    List.dropLast_concat]

theorem isQuoted_of_head (h : ∀ d ∈ value.head?, isQuote d = false) : isQuoted value = false := by
  cases value with
  | nil => rfl
  | cons d rest => simp [isQuoted, h d rfl]

theorem renderValue_cases (h : ∀ d ∈ value, isQuote d = false ∧ (isBlank d → d = ' ')) :
    (' ' ∈ value ∧ renderValue value = '\x22' :: (value ++ ['\x22']) ∧ '\x22' ∉ value) ∨
      (' ' ∉ value ∧ renderValue value = value ∧
        ∀ d ∈ value, isBlank d = false ∧ isQuote d = false) := by
  by_cases space : ' ' ∈ value
  · refine Or.inl ⟨space, ?_, fun quote ↦ ?_⟩
    · simp [renderValue, space]
    · exact absurd (h _ quote).1 (by decide)
  · refine Or.inr ⟨space, ?_, fun d hd ↦ ⟨?_, (h d hd).1⟩⟩
    · simp [renderValue, space]
    · refine Bool.eq_false_iff.mpr fun blank ↦ space ?_
      rwa [← (h d hd).2 blank]

theorem unquote_renderValue (h : ∀ d ∈ value, isQuote d = false ∧ (isBlank d → d = ' ')) :
    unquote (renderValue value) = value := by
  obtain ⟨-, written, -⟩ | ⟨-, written, plain⟩ := renderValue_cases h
  · rw [written, unquote_quoted]
  · have whole : Text.stripChars isBlank value = value :=
      Text.stripChars_of_ends (fun d hd ↦ (plain d (List.mem_of_mem_head? hd)).1)
        fun d hd ↦ (plain d (List.mem_of_mem_getLast? hd)).1
    have bare : isQuoted value = false :=
      isQuoted_of_head fun d hd ↦ (plain d (List.mem_of_mem_head? hd)).2
    rw [written, unquote, whole, bare]
    rfl

theorem unbroken_renderValue (h : ∀ d ∈ value, isQuote d = false ∧ (isBlank d → d = ' ')) :
    Unbroken (renderValue value) := by
  obtain ⟨-, written, free⟩ | ⟨-, written, plain⟩ := renderValue_cases h
  · rw [written]
    exact .quoted (by decide) free
  · rw [written]
    exact .of_plain plain

end Value

namespace Comparison

theorem take_unsigned (above : ¬['>'] <+: value) (below : ¬['<'] <+: value)
    (unequal : ¬['!', '='] <+: value) : take value = (.equal, value) := by
  unfold take
  split
  · next rest => exact absurd (List.prefix_append ['!', '='] rest) unequal
  · next rest => exact absurd (List.prefix_append ['>'] rest) above
  · next rest => exact absurd (List.prefix_append ['<'] rest) below
  · rfl

theorem take_sign (comparison : Comparison)
    (unsigned : comparison = .equal → take value = (.equal, value)) :
    take (comparison.sign ++ value) = (comparison, value) := by
  cases comparison with
  | equal => exact unsigned rfl
  | unequal | above | below => rfl

end Comparison

section Field

theorem span_word {cs : List Char} (word : ∀ d ∈ cs, isWordChar d) (stop : isWordChar d = false)
    (rest : List Char) :
    (cs ++ d :: rest).takeWhile isWordChar = cs ∧
      (cs ++ d :: rest).dropWhile isWordChar = d :: rest := by
  refine span_append word fun _ hd ↦ ?_
  cases hd
  exact stop

def writtenField (c : Condition) : List Char :=
  c.column.toList ++ c.subkey.elim [] ('.' :: ·.toList)

variable (h : c.Sayable)
include h

theorem renderCondition_eq :
    renderCondition c =
      writtenField c ++ ':' :: ((comparisonOf c.operation).sign ++ renderValue c.value.toList) := by
  rw [renderCondition, writtenField]
  cases found : c.subkey with
  | none => rfl
  | some subkey => simp [(h.name subkey found).1]

theorem takeField?_written (rest : List Char) :
    takeField? (writtenField c ++ ':' :: rest) = some (writtenField c, rest) := by
  obtain ⟨start, word⟩ := h.identifier
  cases found : c.subkey with
  | none =>
    obtain ⟨taken, dropped⟩ := span_word word (by decide : isWordChar ':' = false) rest
    simp [takeField?, writtenField, found, taken, dropped, start]
  | some subkey =>
    obtain ⟨any, name⟩ := h.name subkey found
    obtain ⟨taken, dropped⟩ :=
      span_word word (by decide : isWordChar '.' = false) (subkey.toList ++ ':' :: rest)
    obtain ⟨takenName, droppedName⟩ := span_word name (by decide : isWordChar ':' = false) rest
    simp [takeField?, writtenField, found, taken, dropped, start, takenName, droppedName, any]

theorem splitField_written : splitField (writtenField c) = (c.column, c.subkey) := by
  have free : '.' ∉ c.column.toList := fun dot ↦
    (isWordChar_plain (h.identifier.2 '.' dot)).2.2.1 rfl
  cases found : c.subkey with
  | none => simp [splitField, writtenField, found, Text.cutFirst_none free]
  | some subkey =>
    simp [splitField, writtenField, found, Text.cutFirst_append _ free, (h.name subkey found).1]

theorem unbroken_written : Unbroken (writtenField c) := by
  have plain {cs : List Char} (word : ∀ d ∈ cs, isWordChar d) : Unbroken cs :=
    .of_plain fun d hd ↦ ⟨(isWordChar_plain (word d hd)).1, (isWordChar_plain (word d hd)).2.1⟩
  refine (plain h.identifier.2).append ?_
  cases found : c.subkey with
  | none => exact .nil
  | some subkey => exact (Unbroken.singleton rfl rfl).append (plain (h.name subkey found).2)

theorem operationName_comparisonOf : (comparisonOf c.operation).operationName = c.operation := by
  have := h.compares
  simp only [List.mem_cons, List.not_mem_nil, or_false] at this
  obtain same | same | same | same := this <;>
  · rw [same]
    rfl

end Field

theorem fieldCondition?_render (h : c.Sayable) : fieldCondition? (renderCondition c) = some c := by
  have taken : Comparison.take ((comparisonOf c.operation).sign ++ renderValue c.value.toList) =
      (comparisonOf c.operation, renderValue c.value.toList) := by
    refine Comparison.take_sign _ fun equal ↦ ?_
    have equals : c.operation = "equals" := by
      rw [← operationName_comparisonOf h, equal]
      rfl
    obtain ⟨-, written, -⟩ | ⟨space, written, -⟩ := renderValue_cases h.spaced
    · rw [written]
      rfl
    · obtain ⟨above, below, unequal⟩ := h.unsigned equals space
      rw [written, Comparison.take_unsigned above below unequal]
  have line : '\n' ∉ renderValue c.value.toList := by
    obtain ⟨-, written, -⟩ | ⟨-, written, plain⟩ := renderValue_cases h.spaced
    · intro feed
      have inside : '\n' ∈ c.value.toList := by simpa [written] using feed
      exact absurd ((h.spaced '\n' inside).2 (by decide)) (by decide)
    · exact fun feed ↦ absurd (plain '\n' (written ▸ feed)).1 (by decide)
  rw [renderCondition_eq h, fieldCondition?, takeField?_written h]
  simp [taken, line, splitField_written h, operationName_comparisonOf h, unquote_renderValue h.spaced]

theorem ofToken_render (h : c.Sayable) : Term.ofToken (renderCondition c) = .field c := by
  have colon : ':' ∈ renderCondition c := by simp [renderCondition_eq h]
  have orWord : renderCondition c ≠ ['O', 'R'] := fun same ↦ by simp [same] at colon
  have andWord : renderCondition c ≠ ['A', 'N', 'D'] := fun same ↦ by simp [same] at colon
  have bare : isQuoted (renderCondition c) = false := by
    refine isQuoted_of_head fun d hd ↦ ?_
    obtain ⟨start, word⟩ := h.identifier
    cases letters : c.column.toList with
    | nil => simp [letters] at start
    | cons first tail =>
      rw [renderCondition_eq h, writtenField, letters] at hd
      cases hd
      exact (isWordChar_plain (word d (letters ▸ List.mem_cons_self))).2.1
  simp [Term.ofToken, orWord, andWord, bare, fieldCondition?_render h]

theorem unbroken_render (h : c.Sayable) :
    Unbroken (renderCondition c) ∧ renderCondition c ≠ [] := by
  rw [renderCondition_eq h]
  have sign : Unbroken (':' :: (comparisonOf c.operation).sign) := by
    cases comparisonOf c.operation <;> exact .of_all (by decide)
  have whole := (unbroken_written h).append (sign.append (unbroken_renderValue h.spaced))
  exact ⟨whole, by simp⟩

section Conditions

variable {conditions : List Condition}

theorem tokens_render (sayable : ∀ c ∈ conditions, c.Sayable) :
    tokens (render conditions) = (conditions.map renderCondition).intersperse ['A', 'N', 'D'] := by
  have joint : Unbroken ['A', 'N', 'D'] := .of_all (by decide)
  refine tokens_intercalate joint (List.cons_ne_nil _ _) fun word hword ↦ ?_
  obtain ⟨c, hc, rfl⟩ := List.mem_map.mp hword
  exact unbroken_render (sayable c hc)

theorem outline_terms (scope : Scope) (exact : Bool) (sayable : ∀ c ∈ conditions, c.Sayable)
    (before : List Condition) :
    (((conditions.map renderCondition).intersperse ['A', 'N', 'D']).map
        fun token ↦ (Term.ofToken token).outline scope exact).foldl Outline.append
        ⟨.and, before, []⟩ =
      ⟨.and, before ++ conditions, []⟩ := by
  induction conditions generalizing before with
  | nil => simp
  | cons c rest ih =>
    rw [List.forall_mem_cons] at sayable
    obtain ⟨first, sayable⟩ := sayable
    have added : Outline.append ⟨.and, before, []⟩
        ((Term.ofToken (renderCondition c)).outline scope exact) = ⟨.and, before ++ [c], []⟩ := by
      rw [ofToken_render first]
      rfl
    have joined : Outline.append ⟨.and, before ++ [c], []⟩
        ((Term.ofToken ['A', 'N', 'D']).outline scope exact) = ⟨.and, before ++ [c], []⟩ :=
      Outline.append_blank _
    cases rest with
    | nil =>
      simp only [List.map_cons, List.map_nil, List.intersperse_singleton, List.foldl_cons,
        List.foldl_nil, added]
    | cons next rest =>
      rw [List.map_cons, List.map_cons, List.intersperse_cons_cons, List.map_cons, List.map_cons,
        List.foldl_cons, List.foldl_cons, added, joined, ← List.map_cons, ih sayable,
        List.append_assoc]
      rfl

theorem outline_render (scope : Scope) (exact : Bool) (sayable : ∀ c ∈ conditions, c.Sayable) :
    outline scope exact (String.ofList (render conditions)) = ⟨.and, conditions, []⟩ := by
  rw [outline, String.toList_ofList, tokens_render sayable]
  exact outline_terms scope exact sayable []

end Conditions

/-- The search that is parsed from the text for some rules has these rules, up to their ids, joined
by `and`, and nothing else. -/
theorem parse_ofRules (scope : Scope) (exact : Bool) (supply : IdSupply) {rules : List Rule}
    (sayable : ∀ rule ∈ rules, rule.toCondition.Sayable) :
    ∃ group remaining, (parse scope exact (ofRules rules)).run supply = (group, remaining) ∧
      group.logic = .and ∧ group.groups = [] ∧
      group.rules.map (·.toCondition) = rules.map (·.toCondition) := by
  have conditions : ∀ c ∈ rules.map (·.toCondition), c.Sayable := by
    intro c hc
    obtain ⟨rule, hrule, rfl⟩ := List.mem_map.mp hc
    exact sayable rule hrule
  rw [parse, ofRules, outline_render scope exact conditions]
  exact ⟨_, _, rfl, rfl, rfl, mapM_toRule _ supply⟩

def oddRules : List Rule :=
  [⟨⟨"customer_number", "equals", " > 5 OR ", none⟩, "1"⟩,
    ⟨⟨"metadata", "not_equals", " ", some "OR_1"⟩, "2"⟩,
    ⟨⟨"total_cost", "greater_than", "=5", none⟩, "3"⟩,
    ⟨⟨"AND", "equals", "", none⟩, "4"⟩]

theorem parse_ofRules_odd :
    (∀ rule ∈ oddRules, rule.toCondition.Sayable) ∧
      ∃ group remaining, (parse .all true (ofRules oddRules)).run ⟨0⟩ = (group, remaining) ∧
        group.logic = .and ∧ group.groups = [] ∧
        group.rules.map (·.toCondition) = oddRules.map (·.toCondition) := by
  have sayable : ∀ rule ∈ oddRules, rule.toCondition.Sayable := by
    simp only [oddRules, List.forall_mem_cons]
    refine ⟨?_, ?_, ?_, ?_, by simp⟩ <;>
    · constructor
      · exact ⟨by decide +kernel, List.all_eq_true.mp (by decide +kernel)⟩
      · rintro subkey ⟨⟩ <;> exact ⟨by decide +kernel, List.all_eq_true.mp (by decide +kernel)⟩
      · decide +kernel
      · exact List.all_iff_forall_prop.mp (by decide +kernel)
      · decide +kernel
  exact ⟨sayable, parse_ofRules .all true ⟨0⟩ sayable⟩

end Search

end CallSearch
