import CallSearch.Proofs.Double.Reader
import CallSearch.Text.Lowercase

namespace CallSearch.Text

variable {c : Char} {cs : List Char} {p : Char → Bool}

theorem utf8ByteSize_ofList (ascii : ∀ c ∈ cs, c.toNat < 128) :
    (String.ofList cs).utf8ByteSize = cs.length := by
  induction cs with
  | nil => rfl
  | cons c rest ih =>
    rw [List.forall_mem_cons] at ascii
    have single : c.utf8Size = 1 :=
      Char.utf8Size_eq_one_iff.mpr (UInt32.le_iff_toNat_le.mpr (Nat.le_of_lt_succ ascii.1))
    rw [String.ofList_cons, String.utf8ByteSize_append, String.utf8ByteSize_singleton, single,
      ih ascii.2, List.length_cons, Nat.add_comm]

theorem stripChars_of_ends (front : ∀ c ∈ cs.head?, p c = false)
    (back : ∀ c ∈ cs.getLast?, p c = false) : stripChars p cs = cs := by
  have nothing : ∀ c ∈ ([] : List Char), p c := by simp
  have first : cs.dropWhile p = cs := (span_append nothing front).2
  have last : cs.reverse.dropWhile p = cs.reverse := by
    rw [← List.head?_reverse] at back
    exact (span_append nothing back).2
  rw [stripChars, first, last, List.reverse_reverse]

theorem mem_stripChars_iff (kept : p c = false) : c ∈ stripChars p cs ↔ c ∈ cs := by
  have stays (l : List Char) : c ∈ l.dropWhile p ↔ c ∈ l := by
    refine ⟨fun inside ↦ (List.dropWhile_suffix p).subset inside, ?_⟩
    intro inside
    rw [← List.takeWhile_append_dropWhile (p := p) (l := l), List.mem_append] at inside
    refine inside.resolve_left fun dropped ↦ ?_
    have := List.mem_takeWhile_imp dropped
    simp [kept] at this
  rw [stripChars, List.mem_reverse, stays, List.mem_reverse, stays]

theorem stripChars_prefix (p : Char → Bool) (cs : List Char) :
    stripChars p cs <+: cs.dropWhile p := by
  rw [stripChars, ← List.reverse_suffix, List.reverse_reverse]
  exact List.dropWhile_suffix p

theorem stripChars_stripChars (p : Char → Bool) (cs : List Char) :
    stripChars p (stripChars p cs) = stripChars p cs := by
  apply stripChars_of_ends
  · intro c first
    obtain ⟨back, same⟩ := stripChars_prefix p cs
    obtain ⟨rest, spelled⟩ := List.head?_eq_some_iff.mp first
    have kept := List.head?_dropWhile_not p cs
    rw [← same, spelled] at kept
    simpa using kept
  · intro c last
    rw [stripChars, List.getLast?_reverse] at last
    have kept := List.head?_dropWhile_not p (cs.dropWhile p).reverse
    rw [last] at kept
    simpa using kept

theorem strip_strip (s : String) : strip (strip s) = strip s := by
  rw [strip, strip, String.toList_ofList, stripChars_stripChars]

theorem strip_of_isBlankText {s : String} (blank : isBlankText s) : strip s = "" := by
  have none : s.toList.dropWhile isBlank = [] :=
    List.dropWhile_eq_nil_iff.mpr (List.all_eq_true.mp blank)
  rw [strip, stripChars, none]
  rfl

theorem mem_strip_iff {s : String} (kept : isBlank c = false) :
    c ∈ (strip s).toList ↔ c ∈ s.toList := by
  rw [strip, String.toList_ofList, mem_stripChars_iff kept]

theorem strip_ofList (kept : ∀ c ∈ cs, isBlank c = false) :
    strip (String.ofList cs) = String.ofList cs := by
  rw [strip, String.toList_ofList, stripChars_of_ends]
  · exact fun c hc ↦ kept c (List.mem_of_mem_head? hc)
  · exact fun c hc ↦ kept c (List.mem_of_mem_getLast? hc)

theorem isBlankText_append (s t : String) :
    isBlankText (s ++ t) = (isBlankText s && isBlankText t) := by
  rw [isBlankText, String.toList_append, List.all_append]
  rfl

theorem lowerAfter_eq {before : List Char} (low : ∀ c ∈ cs, c.toNat < 128 ∧ c.toLower = c) :
    lowerAfter before cs = cs := by
  induction cs generalizing before with
  | nil => rfl
  | cons c rest ih =>
    rw [List.forall_mem_cons] at low
    obtain ⟨⟨ascii, same⟩, low⟩ := low
    have dotted : c ≠ 'İ' := by
      rintro rfl
      revert ascii
      decide
    have sigma : c ≠ 'Σ' := by
      rintro rfl
      revert ascii
      decide
    simp [lowerAfter, dotted, sigma, lowerChar, ascii, same, ih low]

theorem lower_ofList (low : ∀ c ∈ cs, c.toNat < 128 ∧ c.toLower = c) :
    lower (String.ofList cs) = String.ofList cs := by
  rw [lower, String.toList_ofList, lowerAfter_eq low]

theorem cutFirst_append {separator : Char} (rest : List Char) (free : separator ∉ cs) :
    cutFirst separator (cs ++ separator :: rest) = (cs, some rest) := by
  induction cs with
  | nil => simp [cutFirst]
  | cons c tail ih =>
    rw [List.mem_cons, not_or] at free
    simp [cutFirst, Ne.symm free.1, ih free.2]

theorem cutFirst_none {separator : Char} (free : separator ∉ cs) :
    cutFirst separator cs = (cs, none) := by
  induction cs with
  | nil => rfl
  | cons c tail ih =>
    rw [List.mem_cons, not_or] at free
    simp [cutFirst, Ne.symm free.1, ih free.2]

theorem cutFirst_cases (separator : Char) (cs : List Char) :
    (separator ∉ cs ∧ cutFirst separator cs = (cs, none)) ∨
      ∃ before after, separator ∉ before ∧ cs = before ++ separator :: after ∧
        cutFirst separator cs = (before, some after) := by
  by_cases among : separator ∈ cs
  · obtain ⟨before, after, parts, free⟩ := List.eq_append_cons_of_mem among
    exact .inr ⟨before, after, free, parts, parts ▸ cutFirst_append after free⟩
  · exact .inl ⟨among, cutFirst_none among⟩

theorem splitChars_eq (separator : Char) (cs : List Char) :
    ∃ pieces, splitChars separator cs = cs.takeWhile (· != separator) :: pieces := by
  induction cs with
  | nil => exact ⟨[], rfl⟩
  | cons c rest ih =>
    obtain ⟨pieces, split⟩ := ih
    by_cases cut : c = separator
    · exact ⟨splitChars separator rest, by simp [splitChars, cut]⟩
    · exact ⟨pieces, by simp [splitChars, cut, split]⟩

theorem splitChars_eq_splitOn (separator : Char) (cs : List Char) :
    splitChars separator cs = cs.splitOn separator := by
  induction cs with
  | nil => rw [splitChars, List.splitOn_nil]
  | cons c rest ih =>
    rw [splitChars, ih, List.splitOn_cons_eq_if_modifyHead]
    obtain ⟨piece, pieces, split⟩ := List.exists_cons_of_ne_nil (List.splitOn_ne_nil separator rest)
    rw [split]
    rfl

theorem splitChars_free {separator : Char} (free : separator ∉ cs) :
    splitChars separator cs = [cs] := by
  rw [splitChars_eq_splitOn, List.splitOn_eq_singleton free]

theorem split_append (separator : Char) (s t : String) :
    split separator (s ++ String.singleton separator ++ t) =
      split separator s ++ split separator t := by
  simp only [split, splitChars_eq_splitOn, String.toList_append, String.toList_singleton,
    List.append_assoc, List.singleton_append, List.splitOn_append_cons_self, List.map_append]

theorem mem_of_mem_splitChars {separator c : Char} {piece : List Char}
    (inside : piece ∈ splitChars separator cs) (among : c ∈ piece) : c ∈ cs ∧ c ≠ separator := by
  induction cs generalizing piece with
  | nil => simp_all [splitChars]
  | cons first rest ih =>
    obtain ⟨pieces, split⟩ := splitChars_eq separator rest
    have kept (later : c ∈ rest ∧ c ≠ separator) : c ∈ first :: rest ∧ c ≠ separator :=
      ⟨List.mem_cons_of_mem _ later.1, later.2⟩
    by_cases cut : first = separator
    · simp only [splitChars, cut, beq_self_eq_true, if_true, List.mem_cons] at inside
      rcases inside with rfl | later
      · exact absurd among List.not_mem_nil
      · exact kept (ih later among)
    · simp only [splitChars, beq_iff_eq, cut, if_false, split, List.mem_cons] at inside
      rcases inside with rfl | later
      · rcases List.mem_cons.mp among with rfl | among
        · exact ⟨List.mem_cons_self, cut⟩
        · exact kept (ih (split ▸ List.mem_cons_self) among)
      · exact kept (ih (split ▸ List.mem_cons_of_mem _ later) among)

theorem split_eq_iff {separator : Char} {s : String} {pieces : List String} :
    split separator s = pieces ↔ pieces ≠ [] ∧
      (String.singleton separator).intercalate pieces = s ∧
        ∀ piece ∈ pieces, separator ∉ piece.toList := by
  rw [split, splitChars_eq_splitOn]
  constructor
  · intro cut
    have chars : pieces.map String.toList = s.toList.splitOn separator := by
      rw [← cut]
      simp
    refine ⟨?_, ?_, ?_⟩
    · rw [← cut, ne_eq, List.map_eq_nil_iff]
      exact List.splitOn_ne_nil separator _
    · rw [← String.toList_inj, String.toList_intercalate, String.toList_singleton, chars,
        List.intercalate_splitOn]
    · intro piece inside dotted
      have among : piece.toList ∈ splitChars separator s.toList := by
        rw [splitChars_eq_splitOn, ← chars]
        exact List.mem_map_of_mem inside
      exact (mem_of_mem_splitChars among dotted).2 rfl
  · intro ⟨nonempty, joined, free⟩
    have chars : s.toList = [separator].intercalate (pieces.map String.toList) := by
      rw [← joined, String.toList_intercalate, String.toList_singleton]
    rw [chars, List.splitOn_intercalate separator (by simpa using free) (by simpa using nonempty)]
    simp

end CallSearch.Text
