import Mathlib
import CallSearch.Proofs.Double.Reader
import CallSearch.Store.Pattern

namespace CallSearch.Pattern

/-- Whether a character stands only for itself in a pattern. -/
def Plain (p : Char) : Prop := p ≠ '%' ∧ p ≠ '_'

/-- Whether a pattern stands for some characters. -/
inductive Spells : List Char → List Char → Prop
  | nil : Spells [] []
  | run {pattern text : List Char} (skipped : List Char) (rest : Spells pattern text) :
      Spells ('%' :: pattern) (skipped ++ text)
  | one {pattern text : List Char} (c : Char) (rest : Spells pattern text) :
      Spells ('_' :: pattern) (c :: text)
  | letter {p c : Char} {pattern text : List Char} (plain : Plain p) (same : sameLetter p c)
      (rest : Spells pattern text) : Spells (p :: pattern) (c :: text)

variable {p c : Char} {pattern other value text : List Char}

theorem anyTail_iff {test : List Char → Bool} :
    anyTail test text ↔ ∃ skipped rest, text = skipped ++ rest ∧ test rest := by
  induction text with
  | nil => simp [anyTail, and_assoc]
  | cons c text ih =>
    rw [anyTail, Bool.or_eq_true, ih]
    constructor
    · rintro (now | ⟨skipped, rest, rfl, later⟩)
      · exact ⟨[], c :: text, rfl, now⟩
      · exact ⟨c :: skipped, rest, rfl, later⟩
    · rintro ⟨skipped, rest, same, passed⟩
      cases skipped with
      | nil => exact .inl (same ▸ passed)
      | cons d skipped =>
        obtain ⟨rfl, rfl⟩ := List.cons.inj same
        exact .inr ⟨skipped, rest, rfl, passed⟩

theorem spells_nil_iff : Spells [] text ↔ text = [] := by
  constructor
  · rintro ⟨⟩
    rfl
  · rintro rfl
    exact .nil

theorem spells_run_iff :
    Spells ('%' :: pattern) text ↔
      ∃ skipped rest, text = skipped ++ rest ∧ Spells pattern rest := by
  constructor
  · intro spells
    cases spells with
    | run skipped rest => exact ⟨skipped, _, rfl, rest⟩
    | letter plain => exact absurd rfl plain.1
  · rintro ⟨skipped, rest, rfl, spells⟩
    exact .run skipped spells

theorem spells_cons_iff (notRun : p ≠ '%') :
    Spells (p :: pattern) text ↔
      ∃ c rest, text = c :: rest ∧ (p = '_' ∨ sameLetter p c) ∧ Spells pattern rest := by
  constructor
  · intro spells
    cases spells with
    | run => exact absurd rfl notRun
    | one c rest => exact ⟨c, _, rfl, .inl rfl, rest⟩
    | letter plain same rest => exact ⟨_, _, rfl, .inr same, rest⟩
  · rintro ⟨c, rest, rfl, fits, spells⟩
    by_cases blank : p = '_'
    · exact blank ▸ .one c spells
    · exact .letter ⟨notRun, blank⟩ (fits.resolve_left blank) spells

theorem matchChars_iff : matchChars pattern text ↔ Spells pattern text := by
  induction pattern generalizing text with
  | nil => rw [matchChars, List.isEmpty_iff, spells_nil_iff]
  | cons p pattern ih =>
    rw [matchChars.eq_def]
    dsimp only
    by_cases run : p = '%'
    · subst run
      simp only [beq_self_eq_true, if_true, anyTail_iff, ih, spells_run_iff]
    · rw [if_neg (by simpa using run), spells_cons_iff run]
      cases text with
      | nil => simp
      | cons c text => simp [ih]

theorem fits_iff {pattern text : String} :
    fits pattern text ↔ Spells (readable pattern) (readable text) := by
  rw [fits_eq, matchChars_iff]

theorem spells_append_iff :
    Spells (pattern ++ other) text ↔
      ∃ front back, text = front ++ back ∧ Spells pattern front ∧ Spells other back := by
  constructor
  · induction pattern generalizing text with
    | nil => exact fun spells ↦ ⟨[], text, rfl, .nil, spells⟩
    | cons p pattern ih =>
      intro spells
      rw [List.cons_append] at spells
      by_cases run : p = '%'
      · subst run
        obtain ⟨skipped, rest, rfl, later⟩ := spells_run_iff.mp spells
        obtain ⟨front, back, rfl, first, second⟩ := ih later
        exact ⟨skipped ++ front, back, by rw [List.append_assoc], .run skipped first, second⟩
      · obtain ⟨c, rest, rfl, fits, later⟩ := (spells_cons_iff run).mp spells
        obtain ⟨front, back, rfl, first, second⟩ := ih later
        have longer := (spells_cons_iff run).mpr ⟨c, front, rfl, fits, first⟩
        exact ⟨c :: front, back, rfl, longer, second⟩
  · rintro ⟨front, back, rfl, first, second⟩
    induction first with
    | nil => exact second
    | run skipped rest ih => rw [List.append_assoc]; exact .run skipped ih
    | one c rest ih => exact .one c ih
    | letter plain same rest ih => exact .letter plain same ih

theorem spells_any (text : List Char) : Spells ['%'] text :=
  spells_run_iff.mpr ⟨text, [], by simp, .nil⟩

theorem spells_self (text : List Char) : Spells text text := by
  induction text with
  | nil => exact .nil
  | cons c text ih =>
    by_cases run : c = '%'
    · subst run
      exact .run ['%'] ih
    · exact (spells_cons_iff run).mpr ⟨c, text, rfl, .inr (by simp [sameLetter]), ih⟩

def lowered (text : List Char) : List Char := text.map Char.toLower

theorem spells_plain_iff (plain : ∀ p ∈ value, Plain p) :
    Spells value text ↔ lowered value = lowered text := by
  induction value generalizing text with
  | nil => rw [spells_nil_iff]; simp [lowered, eq_comm]
  | cons p value ih =>
    rw [List.forall_mem_cons] at plain
    rw [spells_cons_iff plain.1.1]
    cases text with
    | nil => simp [lowered]
    | cons c text => simp [ih plain.2, lowered, sameLetter, plain.1.2]

theorem eq_of_toLower (notLetter : p.isAlpha = false) (same : c.toLower = p) : c = p := by
  have notUpper : ¬c.isUpper := by
    intro upper
    have letter := c.isAlpha_toLower_eq_isAlpha
    rw [same, notLetter, Char.isAlpha, upper] at letter
    cases letter
  rwa [Char.toLower_eq_of_not_isUpper notUpper] at same

/-- The case of letters of ASCII makes no difference in a pattern. -/
theorem spells_of_lowered (same : lowered pattern = lowered other) (spells : Spells pattern text) :
    Spells other text := by
  induction spells generalizing other with
  | nil =>
    obtain rfl : other = [] := by simpa [lowered] using same.symm
    exact .nil
  | run skipped rest ih =>
    obtain ⟨q, others, rfl, first, later⟩ := List.map_eq_cons_iff.mp same.symm
    obtain rfl : q = '%' := eq_of_toLower (by decide) first
    exact .run skipped (ih later.symm)
  | one c rest ih =>
    obtain ⟨q, others, rfl, first, later⟩ := List.map_eq_cons_iff.mp same.symm
    obtain rfl : q = '_' := eq_of_toLower (by decide) first
    exact .one c (ih later.symm)
  | @letter p c pattern text plain alike rest ih =>
    obtain ⟨q, others, rfl, first, later⟩ := List.map_eq_cons_iff.mp same.symm
    have notRun : q ≠ '%' := by
      rintro rfl
      exact plain.1 (eq_of_toLower (by decide) first.symm)
    refine (spells_cons_iff notRun).mpr ⟨c, text, rfl, .inr ?_, ih later.symm⟩
    rw [sameLetter, first]
    exact alike

def filled (pattern : List Char) : List Char :=
  (pattern.filter (· != '%')).map fun c ↦ if c == '_' then 'x' else c

theorem spells_filled (pattern : List Char) : Spells pattern (filled pattern) := by
  induction pattern with
  | nil => exact .nil
  | cons p pattern ih =>
    unfold filled at ih ⊢
    by_cases run : p = '%'
    · subst run
      simpa using Spells.run [] ih
    · rw [List.filter_cons_of_pos (by simpa using run), List.map_cons]
      refine (spells_cons_iff run).mpr ⟨_, _, rfl, ?_, ih⟩
      by_cases blank : p = '_'
      · exact .inl blank
      · simp [blank, sameLetter]

theorem plain_of_mem_filled (inside : c ∈ filled pattern) : Plain c := by
  obtain ⟨d, among, rfl⟩ := List.mem_map.mp inside
  have notRun : d ≠ '%' := by simpa using (List.mem_filter.mp among).2
  by_cases blank : d = '_'
  · rw [if_pos (by simpa using blank)]
    exact ⟨by decide, by decide⟩
  · rw [if_neg (by simpa using blank)]
    exact ⟨notRun, blank⟩

theorem not_infix_filled (inside : p ∈ value) (wild : ¬Plain p) :
    ¬lowered value <:+: lowered (filled value) := by
  intro occurs
  have special : p = '%' ∨ p = '_' := by
    unfold Plain at wild
    tauto
  have quiet : p.toLower = p ∧ p.isAlpha = false := by
    rcases special with rfl | rfl <;> decide
  obtain ⟨c, among, same⟩ := List.mem_map.mp (occurs.subset (List.mem_map_of_mem inside))
  rw [quiet.1] at same
  obtain rfl := eq_of_toLower quiet.2 same
  exact wild (plain_of_mem_filled among)

section Placed

theorem spells_between_iff :
    Spells ('%' :: (value ++ ['%'])) text ↔
      ∃ front middle back, text = front ++ middle ++ back ∧ Spells value middle := by
  rw [spells_run_iff]
  simp only [spells_append_iff]
  constructor
  · rintro ⟨front, _, rfl, middle, back, rfl, spells, -⟩
    exact ⟨front, middle, back, by rw [List.append_assoc], spells⟩
  · rintro ⟨front, middle, back, rfl, spells⟩
    exact ⟨front, middle ++ back, by rw [List.append_assoc], middle, back, rfl, spells,
      spells_any back⟩

theorem spells_before_iff :
    Spells (value ++ ['%']) text ↔ ∃ front back, text = front ++ back ∧ Spells value front := by
  simp [spells_append_iff, spells_any]

theorem lowered_eq_append_iff {front back : List Char} :
    lowered text = front ++ back ↔
      ∃ front' back', text = front' ++ back' ∧ lowered front' = front ∧ lowered back' = back :=
  List.map_eq_append_iff

variable (plain : ∀ p ∈ value, Plain p)

include plain

theorem spells_between_plain_iff :
    Spells ('%' :: (value ++ ['%'])) text ↔ lowered value <:+: lowered text := by
  rw [spells_between_iff]
  constructor
  · rintro ⟨front, middle, back, rfl, spells⟩
    refine ⟨lowered front, lowered back, ?_⟩
    rw [(spells_plain_iff plain).mp spells]
    simp [lowered]
  · rintro ⟨front, back, same⟩
    obtain ⟨rest, last, rfl, same', -⟩ := lowered_eq_append_iff.mp same.symm
    obtain ⟨first, middle, rfl, -, spelled⟩ := lowered_eq_append_iff.mp same'
    exact ⟨first, middle, last, rfl, (spells_plain_iff plain).mpr spelled.symm⟩

theorem spells_before_plain_iff :
    Spells (value ++ ['%']) text ↔ lowered value <+: lowered text := by
  rw [spells_before_iff]
  constructor
  · rintro ⟨front, back, rfl, spells⟩
    refine ⟨lowered back, ?_⟩
    rw [(spells_plain_iff plain).mp spells]
    simp [lowered]
  · rintro ⟨back, same⟩
    obtain ⟨first, last, rfl, spelled, -⟩ := lowered_eq_append_iff.mp same.symm
    exact ⟨first, last, rfl, (spells_plain_iff plain).mpr spelled.symm⟩

theorem spells_after_plain_iff :
    Spells ('%' :: value) text ↔ lowered value <:+ lowered text := by
  rw [spells_run_iff]
  constructor
  · rintro ⟨front, back, rfl, spells⟩
    refine ⟨lowered front, ?_⟩
    rw [(spells_plain_iff plain).mp spells]
    simp [lowered]
  · rintro ⟨front, same⟩
    obtain ⟨first, last, rfl, -, spelled⟩ := lowered_eq_append_iff.mp same.symm
    exact ⟨first, last, rfl, (spells_plain_iff plain).mpr spelled.symm⟩

end Placed

/-- Whether the store reads the whole of a text as it is. -/
def Whole (text : String) : Prop := readable text = text.toList

theorem whole_iff {text : String} :
    Whole text ↔ ∀ c ∈ text.toList, c ≠ '\x00' ∧ replaced c = c := by
  unfold Whole readable
  constructor
  · intro same
    have length := congrArg List.length same
    rw [List.length_map] at length
    have all : text.toList.takeWhile (· != '\x00') = text.toList :=
      (List.takeWhile_prefix _).eq_of_length length
    rw [all] at same
    intro c inside
    refine ⟨by simpa using List.takeWhile_eq_self_iff.mp all c inside, ?_⟩
    exact List.map_inj_left.mp (same.trans (List.map_id _).symm) c inside
  · intro each
    have all : text.toList.takeWhile (· != '\x00') = text.toList :=
      List.takeWhile_eq_self_iff.mpr fun c inside ↦ by simpa using (each c inside).1
    rw [all]
    exact (List.map_congr_left fun c inside ↦ (each c inside).2).trans (List.map_id _)

theorem Whole.append {first second : String} (whole : Whole first) (whole' : Whole second) :
    Whole (first ++ second) := by
  rw [whole_iff] at *
  rw [String.toList_append]
  exact List.forall_mem_append.mpr ⟨whole, whole'⟩

theorem whole_filled {text : String} (whole : Whole text) :
    Whole (String.ofList (filled text.toList)) := by
  rw [whole_iff] at *
  rw [String.toList_ofList]
  intro c inside
  obtain ⟨d, among, rfl⟩ := List.mem_map.mp inside
  split
  · decide
  · exact whole d (List.mem_of_mem_filter among)

section Readable

variable {first s t : String}

theorem readable_append_nul (nul : '\x00' ∈ first.toList) (second : String) :
    readable (first ++ second) = readable first := by
  have ends : ¬∀ c ∈ first.toList, c != '\x00' := fun each ↦ absurd (each _ nul) (by decide)
  rw [readable, readable, String.toList_append, List.takeWhile_append, if_neg]
  intro whole
  exact ends (List.takeWhile_eq_self_iff.mp ((List.takeWhile_prefix _).eq_of_length whole))

theorem readable_append (free : '\x00' ∉ first.toList) (second : String) :
    readable (first ++ second) = readable first ++ readable second := by
  have each : ∀ c ∈ first.toList, c != '\x00' := by
    intro c inside
    rw [bne_iff_ne]
    rintro rfl
    exact free inside
  rw [readable, readable, readable, String.toList_append, List.takeWhile_append_of_pos each,
    List.takeWhile_eq_self_iff.mpr each, List.map_append]

theorem isUpper_quiet (upper : c.isUpper) :
    replaced c = c ∧ replaced c.toLower = c.toLower ∧ c.toLower.utf8Size = c.utf8Size ∧
      Text.isBlank c = false ∧ Text.isBlank c.toLower = false := by
  have bounds : 65 ≤ c.toNat ∧ c.toNat < 91 := by
    simp only [Char.isUpper, decide_eq_true_eq, ge_iff_le, UInt32.le_iff_toNat_le] at upper
    exact ⟨upper.1, Nat.lt_succ_of_le upper.2⟩
  exact of_toNat (fun c ↦ replaced c = c ∧ replaced c.toLower = c.toLower ∧
    c.toLower.utf8Size = c.utf8Size ∧ Text.isBlank c = false ∧ Text.isBlank c.toLower = false)
    65 91 (by decide +kernel) bounds.1 bounds.2

theorem toLower_replaced (c : Char) : (replaced c).toLower = replaced c.toLower := by
  by_cases upper : c.isUpper
  · obtain ⟨same, small, -⟩ := isUpper_quiet upper
    rw [same, small]
  · rw [Char.toLower_eq_of_not_isUpper upper]
    unfold replaced
    split
    · decide
    · exact Char.toLower_eq_of_not_isUpper upper

theorem utf8Size_toLower (c : Char) : c.toLower.utf8Size = c.utf8Size := by
  by_cases upper : c.isUpper
  · exact (isUpper_quiet upper).2.2.1
  · rw [Char.toLower_eq_of_not_isUpper upper]

theorem isBlank_toLower (c : Char) : Text.isBlank c.toLower = Text.isBlank c := by
  by_cases upper : c.isUpper
  · obtain ⟨-, -, -, large, small⟩ := isUpper_quiet upper
    rw [large, small]
  · rw [Char.toLower_eq_of_not_isUpper upper]

theorem toLower_eq_nul_iff : c.toLower = '\x00' ↔ c = '\x00' := by
  constructor
  · exact eq_of_toLower (by decide)
  · rintro rfl
    decide

theorem lowered_readable (s : String) :
    lowered (readable s) = ((lowered s.toList).takeWhile (· != '\x00')).map replaced := by
  have kept : ((· != '\x00') ∘ Char.toLower) = (· != '\x00') := by
    funext c
    simp [bne, toLower_eq_nul_iff]
  rw [lowered, lowered, readable, List.takeWhile_map, kept, List.map_map, List.map_map]
  exact List.map_congr_left fun c _ ↦ toLower_replaced c

theorem utf8Len_lowered (cs : List Char) : String.utf8Len (lowered cs) = String.utf8Len cs := by
  induction cs with
  | nil => rfl
  | cons c cs ih =>
    unfold lowered at ih ⊢
    rw [List.map_cons, String.utf8Len_cons, String.utf8Len_cons, utf8Size_toLower, ih]

/-- Whether two texts are the same up to the case of letters of ASCII. -/
def SameLetters (s t : String) : Prop := lowered s.toList = lowered t.toList

instance (s t : String) : Decidable (SameLetters s t) := inferInstanceAs (Decidable (_ = _))

namespace SameLetters

theorem symm (same : SameLetters s t) : SameLetters t s := Eq.symm same

theorem append (same : SameLetters s t) (before after : String) :
    SameLetters (before ++ s ++ after) (before ++ t ++ after) := by
  unfold SameLetters lowered at *
  simp [same]

theorem utf8ByteSize (same : SameLetters s t) : s.utf8ByteSize = t.utf8ByteSize := by
  have length (text : String) : text.utf8ByteSize = String.utf8Len (lowered text.toList) := by
    rw [utf8Len_lowered, ← String.utf8ByteSize_ofList, String.ofList_toList]
  rw [length, length, same]

theorem isBlankText (same : SameLetters s t) : Text.isBlankText s = Text.isBlankText t := by
  have blank (text : String) :
      Text.isBlankText text = (lowered text.toList).all Text.isBlank := by
    simp [Text.isBlankText, lowered, Function.comp_def, isBlank_toLower]
  rw [blank, blank, same]

theorem readable (same : SameLetters s t) :
    lowered (Pattern.readable s) = lowered (Pattern.readable t) := by
  rw [lowered_readable, lowered_readable, same]

end SameLetters

end Readable

end CallSearch.Pattern
