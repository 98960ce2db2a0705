import CallSearch.Proofs.Compile.Substring

namespace CallSearch

open Pattern

namespace Operation

variable {operation : Operation} {value other text front back : String}

/-- Whether a text is one that an operation looks for. -/
def Suits (operation : Operation) (value text : String) : Prop :=
  match operation with
  | .equals => text = value
  | _ => Spells (readable (operation.patternOf value)) (readable text)

/-- What is read of the run at the end of a pattern: nothing if there is a NUL in the value. -/
def openEnd (value : String) : List Char := if '\x00' ∈ value.toList then [] else ['%']

theorem spells_openEnd (value : String) : Spells (openEnd value) [] := by
  unfold openEnd
  split
  · exact .nil
  · exact spells_any []

theorem openEnd_append (free : '\x00' ∉ front.toList) (value : String) :
    openEnd (front ++ value) = openEnd value := by
  simp [openEnd, free]

theorem readable_openEnd (value : String) :
    readable (value ++ "%") = readable value ++ openEnd value := by
  unfold openEnd
  by_cases nul : '\x00' ∈ value.toList
  · rw [readable_append_nul nul, if_pos nul, List.append_nil]
  · rw [readable_append nul, if_neg nul]
    rfl

theorem readable_run (text : String) : readable ("%" ++ text) = '%' :: readable text :=
  readable_append (by decide) text

theorem startsWith_iff :
    startsWith.Suits value text ↔ Spells (readable value ++ openEnd value) (readable text) := by
  rw [← readable_openEnd]
  simp [Suits, patternOf]

theorem endsWith_iff :
    endsWith.Suits value text ↔ Spells ('%' :: readable value) (readable text) := by
  rw [← readable_run]
  simp [Suits, patternOf]

theorem contains_iff :
    contains.Suits value text ↔
      Spells ('%' :: (readable value ++ openEnd value)) (readable text) := by
  rw [← readable_openEnd, ← readable_run, ← String.append_assoc]
  rfl

theorem suits_self (among : operation ∈ [startsWith, endsWith]) (value : String) :
    operation.Suits value value := by
  rcases List.mem_pair.mp among with rfl | rfl
  · have spelled := spells_append_iff.mpr
      ⟨readable value, [], rfl, spells_self _, spells_openEnd value⟩
    rw [List.append_nil] at spelled
    exact startsWith_iff.mpr spelled
  · exact endsWith_iff.mpr (.run [] (spells_self _))

namespace Suits

theorem contains (among : operation ∈ [startsWith, endsWith]) (suits : operation.Suits value text) :
    Operation.contains.Suits value text := by
  rcases List.mem_pair.mp among with rfl | rfl
  · exact contains_iff.mpr (.run [] (startsWith_iff.mp suits))
  · have spelled := spells_append_iff.mpr
      ⟨readable text, [], (List.append_nil _).symm, endsWith_iff.mp suits, spells_openEnd value⟩
    exact contains_iff.mpr spelled

theorem spells_start {text : List Char} (back : String)
    (spells : Spells (readable (value ++ back) ++ openEnd (value ++ back)) text) :
    Spells (readable value ++ openEnd value) text := by
  by_cases nul : '\x00' ∈ value.toList
  · have nul' : '\x00' ∈ (value ++ back).toList := by simp [nul]
    rw [readable_append_nul nul, openEnd, if_pos nul'] at spells
    rwa [openEnd, if_pos nul]
  · rw [readable_append nul, List.append_assoc] at spells
    obtain ⟨first, rest, rfl, spelled, -⟩ := spells_append_iff.mp spells
    rw [openEnd, if_neg nul]
    exact spells_before_iff.mpr ⟨first, rest, rfl, spelled⟩

theorem of_start (suits : startsWith.Suits (value ++ back) text) : startsWith.Suits value text :=
  startsWith_iff.mpr (spells_start back (startsWith_iff.mp suits))

theorem of_end (free : '\x00' ∉ front.toList) (suits : endsWith.Suits (front ++ value) text) :
    endsWith.Suits value text := by
  obtain ⟨skipped, rest, same, spells⟩ := spells_run_iff.mp (endsWith_iff.mp suits)
  rw [readable_append free] at spells
  obtain ⟨first, last, rfl, -, spelled⟩ := spells_append_iff.mp spells
  apply endsWith_iff.mpr
  rw [same, ← List.append_assoc]
  exact .run (skipped ++ first) spelled

theorem of_part (free : '\x00' ∉ front.toList)
    (suits : Operation.contains.Suits (front ++ value ++ back) text) :
    Operation.contains.Suits value text := by
  obtain ⟨skipped, rest, same, spells⟩ := spells_run_iff.mp (contains_iff.mp suits)
  rw [String.append_assoc, readable_append free, openEnd_append free, List.append_assoc] at spells
  obtain ⟨first, last, rfl, -, spelled⟩ := spells_append_iff.mp spells
  apply contains_iff.mpr
  rw [same, ← List.append_assoc]
  exact .run (skipped ++ first) (spells_start back spelled)

end Suits

theorem SameLetters.patternOf (same : SameLetters value other)
    (searches : operation ∈ textSearches) :
    SameLetters (operation.patternOf value) (operation.patternOf other) := by
  rcases mem_textSearches_iff.mp searches with rfl | rfl | rfl
  · exact same.append "%" "%"
  · exact same.append "" "%"
  · exact same.append "%" ""

theorem Suits.of_sameLetters (searches : operation ∈ textSearches) (same : SameLetters value other)
    (suits : operation.Suits value text) : operation.Suits other text := by
  have alike := (SameLetters.patternOf same searches).readable
  rcases mem_textSearches_iff.mp searches with rfl | rfl | rfl
  · exact spells_of_lowered alike suits
  · exact spells_of_lowered alike suits
  · exact spells_of_lowered alike suits

/-- Whether the store takes the pattern that an operation makes of a value. -/
def Taken (operation : Operation) (value : String) : Prop :=
  (operation.patternOf value).utf8ByteSize ≤ sizeLimit

instance (operation : Operation) (value : String) : Decidable (operation.Taken value) :=
  inferInstanceAs (Decidable (_ ≤ _))

theorem Taken.of_start (taken : startsWith.Taken (value ++ back)) : startsWith.Taken value := by
  simp only [Taken, patternOf, String.utf8ByteSize_append] at taken ⊢
  omega

theorem Taken.of_end (taken : endsWith.Taken (front ++ value)) : endsWith.Taken value := by
  simp only [Taken, patternOf, String.utf8ByteSize_append] at taken ⊢
  omega

theorem Taken.of_part (taken : contains.Taken (front ++ value ++ back)) : contains.Taken value := by
  simp only [Taken, patternOf, String.utf8ByteSize_append] at taken ⊢
  omega

theorem Taken.of_contains (searches : operation ∈ textSearches) (taken : contains.Taken value) :
    operation.Taken value := by
  have nothing : "".utf8ByteSize = 0 := rfl
  rcases mem_textSearches_iff.mp searches with rfl | rfl | rfl <;>
  · simp only [Taken, patternOf, String.utf8ByteSize_append] at taken ⊢
    omega

end Operation

namespace Compile

open Operation

variable {types : ColumnTypes} {now : Timestamp} {column : Column} {text : TextColumn}
  {operation operation' : Operation} {value value' : String} {calls : List Call}

theorem translate_textEquals (known : CallColumn.ofName? column.name = some (.text text))
    (value : String) :
    Test.ofPredicates [⟨column.name, .equals, .text value⟩] =
      .ok [.compare ⟨.text text, none, false⟩ .equal (.text value)] := by
  have reads := reads_whole (c := wholeColumn column .equals "") known rfl false
  rw [target_plain rfl] at reads
  exact Test.ofPredicates_single (Test.ofPredicate_text reads rfl rfl)

theorem condition_textEquals (texts : column.type = .text)
    (any : Text.isBlankText value = false) :
    condition types now (wholeColumn column .equals value) =
      .ok [⟨column.name, .equals, .text value⟩] := by
  have listed : Operation.equals ∈ column.type.operations := by
    rw [texts]
    decide
  rw [condition_wholeColumn listed (by simp [texts]) any, texts, operationPredicates,
    if_neg (by decide), comparison, comparand_text (by decide), target_plain rfl]
  rfl

theorem exists_finds (types : ColumnTypes) (now : Timestamp) (texts : column.type = .text)
    (known : CallColumn.ofName? column.name = some (.text text))
    (looks : operation = .equals ∨ operation ∈ textSearches ∧ operation.Taken value)
    (any : Text.isBlankText value = false) (calls : List Call) :
    ∃ chosen, Finds types now (wholeColumn column operation value) calls chosen ∧
      ∀ call, call ∈ chosen ↔
        call ∈ calls ∧ ∃ t, call.texts text = some t ∧ operation.Suits value t := by
  rcases looks with rfl | ⟨searches, taken⟩
  · obtain ⟨chosen, selected, mem_iff⟩ := CallTable.select_answered
      (translate_textEquals known value) (by simp) (by simp [Test.isBindable]) (by simp [Test.holds])
      calls
    refine ⟨chosen, ⟨_, condition_textEquals texts any, selected⟩, ?_⟩
    intro call
    have cell : Source.cell ⟨.text text, none, false⟩ call =
        (call.texts text).elim .null .text := rfl
    rw [mem_iff]
    apply and_congr_right'
    simp only [List.forall_mem_singleton, Test.holds, cell, Except.ok.injEq,
      Relation.equal_text_iff, Suits]
    simp
  · have accepted : CallTable.Accepts (some calls)
        [⟨column.name, .matchesPattern, .text (operation.patternOf value)⟩] :=
      (accepts_pattern_iff known).mpr (.inr taken)
    obtain ⟨chosen, selected⟩ := CallTable.accepts_iff.mp accepted
    refine ⟨chosen, (finds_textSearch_iff texts searches any).mpr selected, ?_⟩
    intro call
    have suits (t : String) : operation.Suits value t ↔
        Spells (readable (operation.patternOf value)) (readable t) := by
      rcases mem_textSearches_iff.mp searches with rfl | rfl | rfl <;> rfl
    simp only [suits]
    constructor
    · intro found
      have inside := (CallTable.select_sublist selected).subset found
      exact ⟨inside, (mem_select_pattern_iff known selected inside).mp found⟩
    · rintro ⟨inside, fits⟩
      exact (mem_select_pattern_iff known selected inside).mpr fits

/-- Whether the store answers two conditions, and finds for the second all that it finds for the
first. -/
def Narrower (types : ColumnTypes) (now : Timestamp) (calls : List Call) (c c' : Condition) :
    Prop :=
  ∃ chosen chosen', Finds types now c calls chosen ∧ Finds types now c' calls chosen' ∧
    chosen ⊆ chosen'

theorem narrower_of_suits (texts : column.type = .text)
    (looks : operation = .equals ∨ operation ∈ textSearches ∧ operation.Taken value)
    (looks' : operation' = .equals ∨ operation' ∈ textSearches ∧ operation'.Taken value')
    (any : Text.isBlankText value = false) (any' : Text.isBlankText value' = false)
    (wider : ∀ t, operation.Suits value t → operation'.Suits value' t) :
    Narrower types now calls (wholeColumn column operation value)
      (wholeColumn column operation' value') := by
  obtain ⟨text, known⟩ := exists_textColumn texts
  obtain ⟨chosen, found, mem_iff⟩ := exists_finds types now texts known looks any calls
  obtain ⟨chosen', found', mem_iff'⟩ := exists_finds types now texts known looks' any' calls
  refine ⟨chosen, chosen', found, found', ?_⟩
  intro call among
  obtain ⟨inside, t, has, suits⟩ := (mem_iff call).mp among
  exact (mem_iff' call).mpr ⟨inside, t, has, wider t suits⟩

theorem finds_sameLetters (types : ColumnTypes) (now : Timestamp) (texts : column.type = .text)
    (searches : operation ∈ textSearches) (taken : operation.Taken value)
    (any : Text.isBlankText value = false) (same : SameLetters value value') (calls : List Call) :
    ∃ chosen, Finds types now (wholeColumn column operation value) calls chosen ∧
      Finds types now (wholeColumn column operation value') calls chosen := by
  obtain ⟨text, known⟩ := exists_textColumn texts
  have taken' : operation.Taken value' := by
    rwa [Taken, ← (SameLetters.patternOf same searches).utf8ByteSize]
  have any' : Text.isBlankText value' = false := by rwa [← same.isBlankText]
  obtain ⟨chosen, found, mem_iff⟩ :=
    exists_finds types now texts known (.inr ⟨searches, taken⟩) any calls
  obtain ⟨chosen', found', mem_iff'⟩ :=
    exists_finds types now texts known (.inr ⟨searches, taken'⟩) any' calls
  have alike (t : String) : operation.Suits value t ↔ operation.Suits value' t :=
    ⟨Suits.of_sameLetters searches same, Suits.of_sameLetters searches same.symm⟩
  obtain rfl : chosen = chosen' := by
    apply CallTable.select_ext ((finds_textSearch_iff texts searches any).mp found)
      ((finds_textSearch_iff texts searches any').mp found')
    intro call
    rw [mem_iff, mem_iff']
    simp only [alike]
  exact ⟨chosen, found, found'⟩

/-- Searches in a column of texts narrow, whatever characters are in their values. What equals a
value is found as beginning and as ending with it, and what is found as either is found as
containing it. What is found for a longer value is found for its start, and if no NUL stands before
them for its end and for a part of it. The case of letters of ASCII in a value makes no difference. -/
theorem search_narrows (types : ColumnTypes) (now : Timestamp) (texts : column.type = .text)
    (any : Text.isBlankText value = false) (calls : List Call) :
    (∀ operation ∈ [Operation.startsWith, .endsWith],
      (operation.Taken value → Narrower types now calls (wholeColumn column .equals value)
        (wholeColumn column operation value)) ∧
      (contains.Taken value → Narrower types now calls (wholeColumn column operation value)
        (wholeColumn column .contains value))) ∧
    (∀ front back, '\x00' ∉ front.toList → contains.Taken (front ++ value ++ back) →
      Narrower types now calls (wholeColumn column .contains (front ++ value ++ back))
        (wholeColumn column .contains value)) ∧
    (∀ back, startsWith.Taken (value ++ back) →
      Narrower types now calls (wholeColumn column .startsWith (value ++ back))
        (wholeColumn column .startsWith value)) ∧
    (∀ front, '\x00' ∉ front.toList → endsWith.Taken (front ++ value) →
      Narrower types now calls (wholeColumn column .endsWith (front ++ value))
        (wholeColumn column .endsWith value)) ∧
    ∀ operation ∈ textSearches, operation.Taken value → ∀ other, SameLetters value other →
      ∃ chosen, Finds types now (wholeColumn column operation value) calls chosen ∧
        Finds types now (wholeColumn column operation other) calls chosen := by
  have part : contains ∈ textSearches := by decide
  have start : startsWith ∈ textSearches := by decide
  have ending : endsWith ∈ textSearches := by decide
  refine ⟨?_, ?_, ?_, ?_, ?_⟩
  · intro operation among
    have searches : operation ∈ textSearches := List.mem_cons_of_mem _ among
    constructor
    · intro taken
      apply narrower_of_suits texts (.inl rfl) (.inr ⟨searches, taken⟩) any any
      rintro t rfl
      exact suits_self among t
    · intro taken
      exact narrower_of_suits texts (.inr ⟨searches, taken.of_contains searches⟩)
        (.inr ⟨part, taken⟩) any any fun t ↦ Suits.contains among
  · intro front back free taken
    have longer : Text.isBlankText (front ++ value ++ back) = false := by
      simp [Text.isBlankText_append, any]
    exact narrower_of_suits texts (.inr ⟨part, taken⟩) (.inr ⟨part, taken.of_part⟩) longer any
      fun t ↦ Suits.of_part free
  · intro back taken
    have longer : Text.isBlankText (value ++ back) = false := by
      simp [Text.isBlankText_append, any]
    exact narrower_of_suits texts (.inr ⟨start, taken⟩) (.inr ⟨start, taken.of_start⟩) longer any
      fun t ↦ Suits.of_start
  · intro front free taken
    have longer : Text.isBlankText (front ++ value) = false := by
      simp [Text.isBlankText_append, any]
    exact narrower_of_suits texts (.inr ⟨ending, taken⟩) (.inr ⟨ending, taken.of_end⟩) longer any
      fun t ↦ Suits.of_end free
  · intro operation searches taken other same
    exact finds_sameLetters types now texts searches taken any same calls

theorem search_narrows_underscore :
    Narrower [] (.startOf default) [namedCall "xa_bC", namedCall "a_b"]
        (wholeColumn .callId .contains "xa_bC") (wholeColumn .callId .contains "a_b") ∧
      ∃ chosen, Finds [] (.startOf default) (wholeColumn .callId .contains "a_b")
          [namedCall "xa_bC", namedCall "a_b"] chosen ∧
        Finds [] (.startOf default) (wholeColumn .callId .contains "A_b")
          [namedCall "xa_bC", namedCall "a_b"] chosen := by
  obtain ⟨-, part, -, -, letters⟩ := @search_narrows .callId "a_b" [] (.startOf default) rfl
    (by decide) [namedCall "xa_bC", namedCall "a_b"]
  constructor
  · exact part "x" "C" (by decide) (by decide)
  · exact letters .contains (by decide) (by decide) "A_b" (by decide)

/-- A longer value for which a call is found that is not found for a part of it: the part stands
after a NUL, up to which the value is read. -/
theorem after_nul_not_narrower :
    Finds [] (.startOf default) (wholeColumn .callId .contains "a\x00b") [namedCall "a"]
        [namedCall "a"] ∧
      Finds [] (.startOf default) (wholeColumn .callId .contains "b") [namedCall "a"] [] ∧
      "b".toList <:+: "a\x00b".toList := by
  refine ⟨⟨_, rfl, ?_⟩, ⟨_, rfl, ?_⟩, ⟨"a\x00".toList, [], rfl⟩⟩
  · rfl
  · rfl

end Compile

end CallSearch
