import CallSearch.Proofs.Filter.Shape
import CallSearch.Proofs.Search.Token
import CallSearch.Search.Parse

namespace CallSearch.Search

namespace Outline

theorem blank_append (a : Outline) : blank.append a = a := by
  obtain ⟨_ | _, conditions, alternatives⟩ := a <;> rfl

theorem append_blank (a : Outline) : a.append blank = a := by
  obtain ⟨_ | _, conditions, alternatives⟩ := a <;> simp [append, blank]

theorem append_assoc (a b c : Outline) : (a.append b).append c = a.append (b.append c) := by
  obtain ⟨logic, _, _⟩ := a
  obtain ⟨logic', _, _⟩ := b
  obtain ⟨logic'', _, _⟩ := c
  cases logic <;> cases logic' <;> cases logic'' <;> simp [append]

instance : Std.Associative append := ⟨append_assoc⟩

theorem logic_append (a b : Outline) :
    (a.append b).logic = .or ↔ a.logic = .or ∨ b.logic = .or := by
  simp [append, or_iff_not_imp_left]

theorem foldl_append (outlines others : List Outline) :
    (outlines ++ others).foldl append blank =
      (outlines.foldl append blank).append (others.foldl append blank) :=
  calc (outlines ++ others).foldl append blank
    _ = others.foldl append ((outlines.foldl append blank).append blank) := by
      rw [append_blank, List.foldl_append]
    _ = (outlines.foldl append blank).append (others.foldl append blank) := List.foldl_assoc

def shape (outline : Outline) : Shape :=
  ⟨outline.logic, outline.conditions, outline.alternatives.map (⟨.or, ·, []⟩)⟩

end Outline

theorem mapM_toRule (conditions : List Condition) (supply : IdSupply) :
    ((conditions.mapM Condition.toRule).run supply).1.map (·.toCondition) = conditions := by
  rw [map_mapM Group.toCondition_toRule, List.map_id']

theorem shapes_alternatives (alternatives : List (List Condition)) (supply : IdSupply) :
    Group.shapes ((alternatives.mapM fun conditions ↦ (do
      let rules ← conditions.mapM Condition.toRule
      return ⟨← freshId, .or, rules, []⟩ : Fresh Group)).run supply).1 =
      alternatives.map (⟨.or, ·, []⟩) := by
  rw [Group.shapes_eq]
  refine map_mapM (fun conditions supply ↦ ?_) alternatives supply
  exact congrArg (Shape.mk .or · []) (mapM_toRule conditions supply)

theorem shape_toGroup (outline : Outline) (supply : IdSupply) :
    (outline.toGroup.run supply).1.shape = outline.shape :=
  congrArg₂ (Shape.mk outline.logic) (mapM_toRule outline.conditions supply)
    (shapes_alternatives outline.alternatives _)

section Apart

variable {first second : String} {w : Char} (closed : Closed first.toList)
  (blank : Text.isBlank w)

include closed blank

theorem tokens_apart :
    tokens (first.push w ++ second).toList = tokens first.toList ++ tokens second.toList := by
  rw [String.toList_append, String.toList_push, List.append_assoc, List.singleton_append,
    tokens_closed closed blank]

theorem outline_apart (scope : Scope) (exact : Bool) :
    outline scope exact (first.push w ++ second) =
      (outline scope exact first).append (outline scope exact second) := by
  rw [outline, tokens_apart closed blank, List.map_append, Outline.foldl_append]
  rfl

end Apart

/-- Behind a text whose quotes are all closed, and a blank, a further text adds its tokens, and what
it says, to those of the first one. One word for `or` in either of them joins the whole by `or`. -/
theorem parse_apart (scope : Scope) (exact : Bool) {first second : String} {w : Char}
    (closed : Closed first.toList) (blank : Text.isBlank w)
    (supply supplyFirst supplySecond : IdSupply) :
    let left := ((parse scope exact first).run supplyFirst).1.shape
    let right := ((parse scope exact second).run supplySecond).1.shape
    let whole := ((parse scope exact (first.push w ++ second)).run supply).1.shape
    whole.conditions = left.conditions ++ right.conditions ∧
      whole.groups = left.groups ++ right.groups ∧
      (whole.logic = .or ↔ left.logic = .or ∨ right.logic = .or) ∧
      tokenize (first.push w ++ second) = tokenize first ++ tokenize second := by
  intro left right whole
  have hleft : left = (outline scope exact first).shape := shape_toGroup _ supplyFirst
  have hright : right = (outline scope exact second).shape := shape_toGroup _ supplySecond
  have hwhole : whole = (outline scope exact (first.push w ++ second)).shape :=
    shape_toGroup _ supply
  rw [outline_apart closed blank] at hwhole
  rw [hwhole, hleft, hright]
  refine ⟨rfl, List.map_append, Outline.logic_append _ _, ?_⟩
  rw [tokenize, tokens_apart closed blank, List.map_append]
  rfl

def sectionOr : String := "\"a 'b\" OR"

/-- A single quote behind it closes nothing. -/
theorem parse_apart_sectionOr :
    Closed sectionOr.toList ∧ Text.isBlank '\n' ∧
      tokenize (sectionOr.push '\n' ++ "it's") = ["\"a 'b\"", "OR", "it's"] ∧
      ((parse .all false (sectionOr.push '\n' ++ "it's")).run ⟨0⟩).1.shape.logic = .or ∧
      ((parse .all false (sectionOr.push '\n' ++ "it's")).run ⟨0⟩).1.shape.groups.length = 2 := by
  have letters : sectionOr.toList =
      '\x22' :: (['a', ' ', '\x27', 'b'] ++ '\x22' :: [' ', 'O', 'R']) := by decide +kernel
  have closed : Closed sectionOr.toList := by
    rw [letters]
    exact .quoted rfl (by decide) (.plain rfl (.plain rfl (.plain rfl .nil)))
  obtain ⟨-, groups, logic, tokens⟩ :=
    @parse_apart .all false sectionOr "it's" '\n' closed (by decide) ⟨0⟩ ⟨1⟩ ⟨2⟩
  refine ⟨closed, by decide, ?_, logic.mpr (.inl ?_), ?_⟩
  · rw [tokens]
    decide +kernel
  · decide +kernel
  · rw [groups, List.length_append]
    decide +kernel

end CallSearch.Search
