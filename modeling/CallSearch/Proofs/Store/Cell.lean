import Mathlib.Algebra.Group.Nat.Defs
import Mathlib.Data.List.TakeWhile
import CallSearch.Proofs.Double.Extended
import CallSearch.Proofs.Double.Reader
import CallSearch.Store.Cell

namespace CallSearch

theorem Cell.isNan_leadingDouble (s : String) : (leadingDouble s).isNan = false := by
  unfold leadingDouble
  split
  · exact Literal.isNan_toStored _
  · rfl

theorem Cell.isNull_asNumber (cell : Cell) : cell.asNumber.isNull = cell.isNull := by
  have text (s : String) : (ofDouble (leadingDouble s)).isNull = false := by
    rw [ofDouble, if_neg (by simp [isNan_leadingDouble])]
    rfl
  cases cell with
  | null => rfl
  | number n => cases n <;> rfl
  | text s => exact text s
  | time t => exact text t.storeText

variable {n : ℤ} {cs : List Char}

theorem leadingDouble_written (h : WrittenNumber Text.isAsciiDigit cs) {literal : Literal}
    (scanned : Literal.scan cs = some (literal, [])) :
    Cell.leadingDouble (String.ofList cs) = literal.toStored := by
  have tight : cs.dropWhile Text.isPlainBlank = cs := by
    rw [List.dropWhile_eq_self_iff]
    intro any
    rw [(h.tight (List.getElem_mem any)).1]
    exact Bool.false_ne_true
  rw [Cell.leadingDouble, String.toList_ofList, tight, scanned]

theorem intChars_eq (n : ℤ) :
    Json.intChars n = (if decide (n < 0) then ['-'] else []) ++ Nat.toDigits 10 n.natAbs := by
  unfold Json.intChars
  by_cases h : n < 0 <;> simp [h]

theorem isAsciiDigit_of_mem_toDigits {c : Char} {k : ℕ} (hc : c ∈ Nat.toDigits 10 k) :
    Text.isAsciiDigit c :=
  Nat.isDigit_of_mem_toDigits (by decide) (by decide) hc

theorem written_intChars (n : ℤ) : WrittenNumber Text.isAsciiDigit (Json.intChars n) := by
  have mantissa : Mantissa Text.isAsciiDigit (Nat.toDigits 10 n.natAbs) :=
    .whole (fun c hc ↦ isAsciiDigit_of_mem_toDigits hc) Nat.toDigits_ne_nil
  have sign : Sign (if decide (n < 0) then ['-'] else []) := by
    split
    · exact .minus
    · exact .none
  have written := WrittenNumber.mk sign mantissa .none
  rwa [List.append_nil, ← intChars_eq] at written

theorem scan_intChars (n : ℤ) :
    Literal.scan (Json.intChars n) = some (⟨decide (n < 0), n.natAbs, 0⟩, []) := by
  obtain ⟨c, rest, digits⟩ := List.exists_cons_of_ne_nil
    (Nat.toDigits_ne_nil : Nat.toDigits 10 n.natAbs ≠ [])
  have hc : Text.isAsciiDigit c :=
    isAsciiDigit_of_mem_toDigits (digits ▸ List.mem_cons_self)
  have sign : Literal.takeSign (Json.intChars n) = (decide (n < 0), c :: rest) := by
    rw [intChars_eq, digits]
    by_cases negative : n < 0
    · simp [negative, Literal.takeSign]
    · have plus : c ≠ '+' := by
        rintro rfl
        exact absurd hc (by decide)
      have minus : c ≠ '-' := by
        rintro rfl
        exact absurd hc (by decide)
      simp [negative, Literal.takeSign, plus, minus]
  obtain ⟨taken, dropped⟩ : ((c :: rest) ++ []).takeWhile Text.isAsciiDigit = c :: rest ∧
      ((c :: rest) ++ []).dropWhile Text.isAsciiDigit = [] :=
    span_append (fun d hd ↦ isAsciiDigit_of_mem_toDigits (digits ▸ hd)) (by simp)
  rw [List.append_nil] at taken dropped
  have value : Nat.ofDigitChars 10 (c :: rest) 0 = n.natAbs := by
    rw [← digits, Nat.ofDigitChars_ten_toDigits]
  simp [Literal.scan, sign, taken, dropped, Literal.takeFraction, Literal.takeExponent, value]

theorem leadingDouble_whole (small : n.natAbs < 10 ^ 19) :
    Cell.leadingDouble (String.ofList (Json.intChars n)) = Double.ofInt n := by
  rw [leadingDouble_written (written_intChars n) (scan_intChars n), Literal.toStored_whole small]
  split
  · next zero =>
    obtain rfl : n = 0 := Int.natAbs_eq_zero.mp zero
    decide +kernel
  · rfl

/-- A whole number below `10 ^ 19`, written in ASCII. -/
inductive WrittenWhole : List Char → Prop
  | mk {sign ds : List Char} (signed : Sign sign) (digits : ∀ c ∈ ds, Text.isAsciiDigit c)
      (any : ds ≠ []) (few : Nat.ofDigitChars 10 ds 0 < 10 ^ 19) : WrittenWhole (sign ++ ds)

namespace WrittenWhole

theorem written (h : WrittenWhole cs) : WrittenNumber Text.isAsciiDigit cs := by
  obtain ⟨signed, digits, any, -⟩ := h
  have written := WrittenNumber.mk signed (.whole digits any) (.none : Exponent Text.isAsciiDigit [])
  rwa [List.append_nil] at written

theorem of_intChars (small : n.natAbs < 10 ^ 19) : WrittenWhole (Json.intChars n) := by
  have sign : Sign (if decide (n < 0) then ['-'] else []) := by
    split
    · exact .minus
    · exact .none
  rw [intChars_eq]
  refine .mk sign (fun c hc ↦ isAsciiDigit_of_mem_toDigits hc) Nat.toDigits_ne_nil ?_
  rwa [Nat.ofDigitChars_ten_toDigits]

theorem scan_eq (h : WrittenWhole cs) :
    ∃ negative digits, digits < 10 ^ 19 ∧ Literal.scan cs = some (⟨negative, digits, 0⟩, []) := by
  obtain @⟨sign, ds, signed, digits, any, few⟩ := h
  obtain ⟨negative, hsign⟩ := takeSign_written [] signed (.whole digits any)
  obtain ⟨taken, dropped⟩ : (ds ++ []).takeWhile Text.isAsciiDigit = ds ∧
      (ds ++ []).dropWhile Text.isAsciiDigit = [] := span_append digits (by simp)
  rw [List.append_nil] at hsign taken dropped
  refine ⟨negative, _, few, ?_⟩
  simp [Literal.scan, hsign, taken, dropped, Literal.takeFraction, Literal.takeExponent, any]

end WrittenWhole

theorem plainChar_written (h : WrittenNumber Text.isAsciiDigit cs) :
    cs.map Double.plainChar = cs := by
  have plain : ∀ c ∈ cs, Double.plainChar c = c := by
    intro c hc
    have ascii : c.toNat < 127 := by
      rcases h.mem hc with digit | other
      · have := (isAsciiDigit_iff.mp digit).2
        omega
      · simp only [List.mem_cons, List.not_mem_nil, or_false] at other
        rcases other with rfl | rfl | rfl | rfl | rfl <;> decide
    rw [Double.plainChar, if_pos ascii]
  rw [List.map_congr_left plain, List.map_id']

theorem ofText?_written_ascii (h : WrittenNumber Text.isAsciiDigit cs) {literal : Literal}
    (scanned : Literal.scan cs = some (literal, [])) :
    Double.ofText? (String.ofList cs) = some literal.toDouble := by
  have stripped : Text.stripChars Text.isPlainBlank ([] ++ cs) = cs :=
    stripChars_append (fun c hc ↦ absurd hc List.not_mem_nil) fun c hc ↦ (h.tight hc).1
  have whole : Double.withoutUnderscores? none cs = some cs :=
    withoutUnderscores?_eq (by simp) fun c hc ↦ (h.tight hc).2
  rw [List.nil_append] at stripped
  simp only [Double.ofText?, String.toList_ofList, plainChar_written h, stripped, whole]
  rw [Option.bind_some, readWhole?_scan h scanned]

theorem WrittenWhole.ofText?_eq (h : WrittenWhole cs) :
    Double.ofText? (String.ofList cs) = some (Cell.leadingDouble (String.ofList cs)) := by
  obtain ⟨negative, digits, few, scanned⟩ := h.scan_eq
  rw [ofText?_written_ascii h.written scanned, leadingDouble_written h.written scanned,
    Literal.toStored_eq_toDouble few]

theorem Decimal.mem_write (layout : Decimal.Layout) (d : Decimal) :
    '.' ∈ d.write layout ∨ 'e' ∈ d.write layout := by
  unfold Decimal.write
  dsimp only
  split
  · left
    split
    · simp
    · split <;> simp
  · right
    simp

theorem Double.mem_writeWith (layout : Decimal.Layout) (digits : Nat → Nat → Decimal)
    (negative : Bool) (exponent : Fin 2047) (fraction : Fin fractionCount) :
    ∃ c ∈ (finite negative exponent fraction).writeWith layout digits, c ∈ ['.', 'e'] := by
  rw [writeWith]
  split
  · exact ⟨'.', by simp, by decide⟩
  · rcases Decimal.mem_write layout (digits exponent fraction) with point | letter
    · exact ⟨'.', List.mem_append_right _ point, by decide⟩
    · exact ⟨'e', List.mem_append_right _ letter, by decide⟩

theorem Double.mem_storeText (x : Double) :
    x.storeText = "" ∨ ∃ c ∈ x.storeText.toList, c ∈ ['.', 'e', 'I'] := by
  rw [storeText, String.toList_ofList]
  cases x with
  | nan => exact .inl rfl
  | infinite negative =>
    refine .inr ⟨'I', ?_, by decide⟩
    cases negative <;> decide
  | finite negative exponent fraction =>
    obtain ⟨c, inside, special⟩ := mem_writeWith storeLayout _ negative exponent fraction
    exact .inr ⟨c, inside, List.mem_append_left ['I'] special⟩

theorem mem_intChars {c : Char} (inside : c ∈ Json.intChars n) :
    c = '-' ∨ Text.isAsciiDigit c := by
  rw [intChars_eq] at inside
  rcases List.mem_append.mp inside with sign | digit
  · split at sign
    · exact .inl (List.mem_singleton.mp sign)
    · cases sign
  · exact .inr (isAsciiDigit_of_mem_toDigits digit)

theorem intChars_ne_nil (n : Int) : Json.intChars n ≠ [] := by
  rw [intChars_eq]
  exact List.append_ne_nil_of_right_ne_nil _ Nat.toDigits_ne_nil

theorem Double.storeText_ne_digits (x : Double) (n : Int) :
    x.storeText ≠ String.ofList (Json.intChars n) := by
  intro same
  rcases x.mem_storeText with nothing | ⟨c, inside, special⟩
  · have empty : "".toList = Json.intChars n := by
      rw [← nothing, same, String.toList_ofList]
    exact intChars_ne_nil n empty.symm
  · rw [same, String.toList_ofList] at inside
    have plain := mem_intChars inside
    revert plain
    simp only [List.mem_cons, List.not_mem_nil, or_false] at special
    rcases special with rfl | rfl | rfl <;> decide

theorem Number.storeText_ofInt_iff :
    (Number.ofInt n).storeText = String.ofList (Json.intChars n) ↔ (Number.int n).fits := by
  unfold Number.ofInt
  split
  · next fits => exact iff_of_true rfl fits
  · next large => exact iff_of_false (Double.storeText_ne_digits _ n) large

end CallSearch
