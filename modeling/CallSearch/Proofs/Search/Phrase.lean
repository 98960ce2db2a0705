import CallSearch.Proofs.Search.Render

namespace CallSearch.Search

/-- The condition that a field is equal to a phrase. What comes after the first dot of the field, if
anything does, is the name of a member. -/
inductive Seeks (phrase : String) : String → Condition → Prop
  | column (column : String) (undotted : '.' ∉ column.toList) :
      Seeks phrase column ⟨column, "equals", phrase, none⟩
  | ended (column : String) (undotted : '.' ∉ column.toList) :
      Seeks phrase (column ++ ".") ⟨column, "equals", phrase, none⟩
  | member (column subkey : String) (undotted : '.' ∉ column.toList) (nonempty : subkey ≠ "") :
      Seeks phrase (column ++ "." ++ subkey) ⟨column, "json_equals", phrase, some subkey⟩

theorem seeks_fieldHolds (phrase field : String) :
    Seeks phrase field (fieldHolds phrase true field) := by
  rcases Text.cutFirst_cases '.' field.toList with
    ⟨undotted, cut⟩ | ⟨column, subkey, undotted, parts, cut⟩
  · have held : fieldHolds phrase true field = ⟨field, "equals", phrase, none⟩ := by
      simp [fieldHolds, splitField, cut]
    rw [held]
    exact .column field undotted
  · rw [← String.toList_ofList (l := column)] at undotted
    by_cases ended : subkey = []
    · have held : fieldHolds phrase true field =
          ⟨String.ofList column, "equals", phrase, none⟩ := by
        simp [fieldHolds, splitField, cut, ended]
      have whole : field = String.ofList column ++ "." := by
        apply String.toList_injective
        simp [parts, ended]
      rw [held, whole]
      exact .ended _ undotted
    · have held : fieldHolds phrase true field =
          ⟨String.ofList column, "json_equals", phrase, some (String.ofList subkey)⟩ := by
        simp [fieldHolds, splitField, cut, ended]
      have whole : field = String.ofList column ++ "." ++ String.ofList subkey := by
        apply String.toList_injective
        simp [parts]
      rw [held, whole]
      exact .member _ _ undotted (by simpa using ended)

section Phrase

variable {phrase : List Char} (nonempty : phrase ≠ []) (free : '\x22' ∉ phrase)
  (alone : phrase ≠ ['\x27'])

include nonempty free alone

theorem ofToken_quoted :
    Term.ofToken ('\x22' :: (phrase ++ ['\x22'])) = .phrase (String.ofList phrase) := by
  have double : phrase ≠ ['\x22'] := by
    rintro rfl
    exact free (List.mem_singleton_self _)
  simp [Term.ofToken, isQuoted_quoted, unquote_quoted, nonempty, alone, double]

theorem outline_quoted (scope : Scope) (exact : Bool) :
    outline scope exact (String.ofList ('\x22' :: (phrase ++ ['\x22']))) =
      expand scope (String.ofList phrase) true := by
  have one := tokens_unbroken (.quoted (by decide : isQuote '\x22') free) (List.cons_ne_nil _ _)
  rw [outline, String.toList_ofList, one, List.map_singleton, ofToken_quoted nonempty free alone]
  exact Outline.blank_append _

end Phrase

theorem shape_expand (scope : Scope) (text : String) (exact : Bool) (any : scope.resolve ≠ []) :
    (expand scope text exact).shape =
      if scope.resolve.length = 1 then ⟨.and, scope.resolve.map (fieldHolds text exact), []⟩
      else ⟨.and, [], [⟨.or, scope.resolve.map (fieldHolds text exact), []⟩]⟩ := by
  rw [expand]
  generalize scope.resolve = fields at any ⊢
  match fields with
  | [] => exact absurd rfl any
  | [field] => rfl
  | first :: second :: rest => simp [Outline.shape]

/-- A phrase between double quotes is searched by one condition for each field of the scope, in
order, that the field is equal to the phrase. One condition stands in the group itself, and several
are alternatives in a group of their own. -/
theorem parse_quoted (scope : Scope) (exact : Bool) {phrase : String} (nonempty : phrase ≠ "")
    (free : '\x22' ∉ phrase.toList) (alone : phrase ≠ "\x27") (fields : scope.fields ≠ [])
    (listed : "all" ∉ scope.fields) (supply : IdSupply) :
    ∃ group remaining, (parse scope exact ("\x22" ++ phrase ++ "\x22")).run supply =
        (group, remaining) ∧
      ∃ conditions, List.Forall₂ (Seeks phrase) scope.fields conditions ∧
        group.shape = if scope.fields.length = 1 then ⟨.and, conditions, []⟩
          else ⟨.and, [], [⟨.or, conditions, []⟩]⟩ := by
  have text : "\x22" ++ phrase ++ "\x22" =
      String.ofList ('\x22' :: (phrase.toList ++ ['\x22'])) := by
    apply String.toList_injective
    simp
  have quote : phrase.toList ≠ ['\x27'] := fun same ↦ alone (String.toList_injective same)
  have resolved : scope.resolve = scope.fields := by simp [Scope.resolve, fields, listed]
  have meaning := outline_quoted (by simpa using nonempty) free quote scope exact
  rw [String.ofList_toList, ← text] at meaning
  have shape := shape_expand scope phrase true (resolved ▸ fields)
  rw [resolved, ← meaning, ← shape_toGroup _ supply] at shape
  refine ⟨_, _, rfl, _, ?_, shape⟩
  rw [List.forall₂_map_right_iff, List.forall₂_same]
  exact fun field _ ↦ seeks_fieldHolds phrase field

def oddPhrase : String := " AND call_id:>1\n OR 'x"

theorem parse_quoted_oddPhrase :
    oddPhrase ≠ "" ∧ '\x22' ∉ oddPhrase.toList ∧ oddPhrase ≠ "\x27" ∧
      ∃ group remaining, (parse ⟨["call_id", "metadata.all", "metrics."], []⟩ false
          ("\x22" ++ oddPhrase ++ "\x22")).run ⟨0⟩ = (group, remaining) ∧
        ∃ conditions, List.Forall₂ (Seeks oddPhrase) ["call_id", "metadata.all", "metrics."]
            conditions ∧
          group.shape = ⟨.and, [], [⟨.or, conditions, []⟩]⟩ := by
  have nonempty : oddPhrase ≠ "" := by decide
  have free : '\x22' ∉ oddPhrase.toList := by decide +kernel
  have alone : oddPhrase ≠ "\x27" := by decide
  exact ⟨nonempty, free, alone, parse_quoted ⟨["call_id", "metadata.all", "metrics."], []⟩ false
    nonempty free alone (by decide) (by decide) ⟨0⟩⟩

end CallSearch.Search
