import Mathlib.Data.List.TakeWhile
import CallSearch.Double.Reader

namespace CallSearch

inductive Sign : List Char → Prop
  | none : Sign []
  | plus : Sign ['+']
  | minus : Sign ['-']

variable {digit : Char → Bool}

/-- Digits of some kind with or without a point, of which there is at least one. -/
inductive Mantissa (digit : Char → Bool) : List Char → Prop
  | whole {ds : List Char} (digits : ∀ c ∈ ds, digit c) (any : ds ≠ []) : Mantissa digit ds
  | point {ds fs : List Char} (digits : ∀ c ∈ ds, digit c) (fraction : ∀ c ∈ fs, digit c)
      (any : ds ≠ [] ∨ fs ≠ []) : Mantissa digit (ds ++ '.' :: fs)

inductive Exponent (digit : Char → Bool) : List Char → Prop
  | none : Exponent digit []
  | some {e : Char} {sign ds : List Char} (letter : e = 'e' ∨ e = 'E') (signed : Sign sign)
      (digits : ∀ c ∈ ds, digit c) (any : ds ≠ []) : Exponent digit (e :: (sign ++ ds))

inductive WrittenNumber (digit : Char → Bool) : List Char → Prop
  | mk {sign mantissa exponent : List Char} (signed : Sign sign) (main : Mantissa digit mantissa)
      (power : Exponent digit exponent) : WrittenNumber digit (sign ++ (mantissa ++ exponent))

section Spans

variable {p : Char → Bool} {body rest : List Char}

theorem span_append (inside : ∀ c ∈ body, p c) (outside : ∀ c ∈ rest.head?, p c = false) :
    (body ++ rest).takeWhile p = body ∧ (body ++ rest).dropWhile p = rest := by
  induction body with
  | nil =>
    cases rest with
    | nil => exact ⟨rfl, rfl⟩
    | cons c tail =>
      have hc : p c = false := outside c rfl
      exact ⟨List.takeWhile_cons_of_neg (by simp [hc]), List.dropWhile_cons_of_neg (by simp [hc])⟩
  | cons c body ih =>
    have hc : p c := inside c List.mem_cons_self
    obtain ⟨taken, dropped⟩ := ih fun d hd ↦ inside d (List.mem_cons_of_mem c hd)
    rw [List.cons_append, List.takeWhile_cons_of_pos hc, List.dropWhile_cons_of_pos hc]
    exact ⟨congrArg (c :: ·) taken, dropped⟩

theorem stripChars_append {before : List Char} (off : ∀ c ∈ before, p c)
    (kept : ∀ c ∈ body, p c = false) : Text.stripChars p (before ++ body) = body := by
  have front : (before ++ body).dropWhile p = body :=
    (span_append off fun c hc ↦ kept c (List.mem_of_mem_head? hc)).2
  have back : ([] ++ body.reverse).dropWhile p = body.reverse := by
    refine (span_append (fun c hc ↦ absurd hc List.not_mem_nil) fun c hc ↦ kept c ?_).2
    exact List.mem_reverse.mp (List.mem_of_mem_head? hc)
  rw [Text.stripChars, front, ← List.nil_append body.reverse, back, List.reverse_reverse]

theorem head?_append_kept {after : List Char} (some : body ≠ []) (kept : ∀ c ∈ body, p c = false) :
    ∀ c ∈ (body ++ after).head?, p c = false := by
  obtain ⟨d, tail, rfl⟩ := List.exists_cons_of_ne_nil some
  intro c first
  cases first
  exact kept _ List.mem_cons_self

theorem stripChars_between {before after : List Char} (off : ∀ c ∈ before, p c) (some : body ≠ [])
    (kept : ∀ c ∈ body, p c = false) (off' : ∀ c ∈ after, p c) :
    Text.stripChars p (before ++ (body ++ after)) = body := by
  have front : (before ++ (body ++ after)).dropWhile p = body ++ after :=
    (span_append off (head?_append_kept some kept)).2
  have back : (after.reverse ++ body.reverse).dropWhile p = body.reverse := by
    refine (span_append (by simpa using off') fun c hc ↦ kept c ?_).2
    exact List.mem_reverse.mp (List.mem_of_mem_head? hc)
  rw [Text.stripChars, front, List.reverse_append, back, List.reverse_reverse]

theorem stripChars_cons {before : List Char} {c : Char} (off : ∀ d ∈ before, p d)
    (kept : p c = false) (rest : List Char) :
    ∃ tail, Text.stripChars p (before ++ c :: rest) = c :: tail := by
  have front : (before ++ c :: rest).dropWhile p = c :: rest :=
    (span_append off fun d hd ↦ by cases hd; exact kept).2
  obtain ⟨more, back⟩ : ∃ more, (rest.reverse ++ [c]).dropWhile p = more ++ [c] := by
    rw [List.dropWhile_append]
    split
    · exact ⟨[], List.dropWhile_cons_of_neg (by simp [kept])⟩
    · exact ⟨rest.reverse.dropWhile p, rfl⟩
  refine ⟨more.reverse, ?_⟩
  rw [Text.stripChars, front, List.reverse_cons, back, List.reverse_append]
  rfl

end Spans

section Scan

variable {sign mantissa exponent : List Char}

theorem Mantissa.head (h : Mantissa digit mantissa) :
    ∃ c rest, mantissa = c :: rest ∧ (digit c ∨ c = '.') := by
  cases h with
  | @whole ds digits any =>
    obtain ⟨c, rest, rfl⟩ := List.exists_cons_of_ne_nil any
    exact ⟨c, rest, rfl, Or.inl (digits c List.mem_cons_self)⟩
  | @point ds fs digits fraction any =>
    cases ds with
    | nil => exact ⟨'.', fs, rfl, Or.inr rfl⟩
    | cons c rest => exact ⟨c, rest ++ '.' :: fs, rfl, Or.inl (digits c List.mem_cons_self)⟩

theorem Exponent.head (h : Exponent digit exponent) : ∀ c ∈ exponent.head?, c = 'e' ∨ c = 'E' := by
  intro c hc
  cases h with
  | none => cases hc
  | some letter signed digits any =>
    cases hc
    exact letter

theorem takeSign_append (signed : Sign sign) {rest : List Char}
    (free : ∀ c ∈ rest.head?, c ≠ '+' ∧ c ≠ '-') :
    ∃ negative, Literal.takeSign (sign ++ rest) = (negative, rest) := by
  cases signed with
  | plus => exact ⟨false, rfl⟩
  | minus => exact ⟨true, rfl⟩
  | none =>
    refine ⟨false, ?_⟩
    cases rest with
    | nil => rfl
    | cons c tail =>
      obtain ⟨hplus, hminus⟩ := free c rfl
      simp [Literal.takeSign, hplus, hminus]

theorem takeExponent_eq (h : Exponent Text.isAsciiDigit exponent) :
    ∃ n, Literal.takeExponent exponent = (n, []) := by
  cases h with
  | none => exact ⟨0, rfl⟩
  | @some e sign ds letter signed digits any =>
    have free : ∀ c ∈ ds.head?, c ≠ '+' ∧ c ≠ '-' := by
      intro c hc
      have hd := digits c (List.mem_of_mem_head? hc)
      constructor <;> rintro rfl <;> exact absurd hd (by decide)
    obtain ⟨negative, hsign⟩ := takeSign_append signed free
    obtain ⟨taken, dropped⟩ : (ds ++ []).takeWhile Text.isAsciiDigit = ds ∧
        (ds ++ []).dropWhile Text.isAsciiDigit = [] := span_append digits (by simp)
    have isLetter : (e == 'e' || e == 'E') = true := by simpa using letter
    rw [List.append_nil] at taken dropped
    simp [Literal.takeExponent, isLetter, hsign, taken, dropped, any]

theorem not_digit_of_exponent (h : Exponent Text.isAsciiDigit exponent) :
    ∀ c ∈ exponent.head?, Text.isAsciiDigit c = false := by
  intro c hc
  rcases h.head c hc with rfl | rfl <;> decide

theorem takeFraction_exponent (h : Exponent Text.isAsciiDigit exponent) :
    Literal.takeFraction exponent = ([], exponent) := by
  cases h with
  | none => rfl
  | some letter => rcases letter with rfl | rfl <;> rfl

theorem takeFraction_point {fs : List Char} (fraction : ∀ c ∈ fs, Text.isAsciiDigit c)
    (h : Exponent Text.isAsciiDigit exponent) :
    Literal.takeFraction ('.' :: (fs ++ exponent)) = (fs, exponent) := by
  obtain ⟨taken, dropped⟩ := span_append fraction (not_digit_of_exponent h)
  rw [Literal.takeFraction, taken, dropped]

theorem takeSign_written (exponent : List Char) (signed : Sign sign)
    (main : Mantissa Text.isAsciiDigit mantissa) :
    ∃ negative, Literal.takeSign (sign ++ (mantissa ++ exponent)) =
      (negative, mantissa ++ exponent) := by
  refine takeSign_append signed ?_
  obtain ⟨d, rest, rfl, hd⟩ := main.head
  intro c hc
  cases hc
  constructor <;> rintro rfl <;> exact absurd hd (by decide)

/-- A written number is read to its end. -/
theorem scan_eq {cs : List Char} (h : WrittenNumber Text.isAsciiDigit cs) :
    ∃ literal, Literal.scan cs = some (literal, []) := by
  obtain @⟨sign, mantissa, exponent, signed, main, power⟩ := h
  obtain ⟨negative, hsign⟩ := takeSign_written exponent signed main
  obtain ⟨power', hpower⟩ := takeExponent_eq power
  cases main with
  | whole digits any =>
    obtain ⟨taken, dropped⟩ := span_append digits (not_digit_of_exponent power)
    simp [Literal.scan, hsign, taken, dropped, takeFraction_exponent power, hpower, any]
  | @point ds fs digits fraction any =>
    have boundary : ∀ c ∈ ('.' :: (fs ++ exponent)).head?, Text.isAsciiDigit c = false := by
      intro c hc
      cases hc
      decide
    obtain ⟨taken, dropped⟩ := span_append digits boundary
    have nonempty : ds = [] → ¬fs = [] := fun hds hfs ↦ any.elim (· hds) (· hfs)
    rw [List.append_assoc, List.cons_append] at hsign ⊢
    simpa [Literal.scan, hsign, taken, dropped, takeFraction_point fraction power, hpower]
      using nonempty

end Scan

section Plain

variable {c : Char} {cs : List Char}

/-- The four information separators, which are blank but do not count as blanks around a number. -/
def isSeparator (c : Char) : Bool := 0x1c ≤ c.toNat && c.toNat ≤ 0x1f

theorem eq_space_iff : c = ' ' ↔ c.toNat = 32 := by
  rw [← Char.toNat_inj]
  rfl

theorem isPlainBlank_plainChar (h : Text.isBlank c) :
    Text.isPlainBlank (Double.plainChar c) = !isSeparator c := by
  by_cases plain : c.toNat < 127
  · rw [Double.plainChar, if_pos plain]
    simp only [Text.isBlank, Text.blankRanges, List.any_cons, List.any_nil, Bool.or_eq_true,
      Bool.and_eq_true, decide_eq_true_eq, Bool.false_eq_true, or_false] at h
    rw [Bool.eq_iff_iff]
    simp only [Text.isPlainBlank, isSeparator, Bool.or_eq_true, Bool.and_eq_true, beq_iff_eq,
      Bool.not_eq_true', decide_eq_true_eq, Bool.and_eq_false_iff, decide_eq_false_iff_not,
      eq_space_iff]
    omega
  · have separator : isSeparator c = false := by
      simp only [isSeparator, Bool.and_eq_false_iff, decide_eq_false_iff_not]
      omega
    rw [Double.plainChar, if_neg plain, if_pos h, separator]
    rfl

theorem exists_zeroDigit {n : Nat} (h : Text.digitValue? c = some n) :
    ∃ first ∈ Text.zeroDigits, c.toNat = first + n ∧ n < 10 := by
  unfold Text.digitValue? at h
  split at h
  · split at h
    · next digit =>
      cases h
      have lower : 48 ≤ c.toNat := digit.1
      have upper : c.toNat ≤ 57 := digit.2
      exact ⟨48, by decide, by omega, by omega⟩
    · cases h
  · obtain ⟨first, found, rfl⟩ := Option.map_eq_some_iff.mp h
    have inside := List.find?_some found
    simp only [Bool.and_eq_true, decide_eq_true_eq] at inside
    exact ⟨first, List.mem_of_find?_eq_some found, by omega, by omega⟩

theorem isBlank_of_isDigit (h : Text.isDigit c) : Text.isBlank c = false := by
  obtain ⟨n, hn⟩ := Option.isSome_iff_exists.mp h
  obtain ⟨first, hfirst, hc, hlt⟩ := exists_zeroDigit hn
  have apart : ∀ first ∈ Text.zeroDigits, ∀ r ∈ Text.blankRanges,
      first + 10 ≤ r.1 ∨ r.2 < first := by decide
  rw [Text.isBlank, List.any_eq_false]
  intro r hr inside
  have := apart first hfirst r hr
  simp only [Bool.and_eq_true, decide_eq_true_eq] at inside
  omega

theorem isAsciiDigit_plainChar (h : Text.isDigit c) :
    Text.isAsciiDigit (Double.plainChar c) := by
  obtain ⟨n, hn⟩ := Option.isSome_iff_exists.mp h
  by_cases plain : c.toNat < 127
  · rw [Double.plainChar, if_pos plain]
    rw [Text.digitValue?, if_pos (by omega)] at hn
    split at hn
    · next digit => simpa [Text.isAsciiDigit] using digit
    · cases hn
  · have ascii : ∀ n < 10, Text.isAsciiDigit (Nat.digitChar n) := by decide
    obtain ⟨first, -, -, hlt⟩ := exists_zeroDigit hn
    rw [Double.plainChar, if_neg plain, isBlank_of_isDigit h, if_neg Bool.false_ne_true, hn]
    exact ascii n hlt

theorem isAsciiDigit_map {ds : List Char} (digits : ∀ c ∈ ds, Text.isDigit c) :
    ∀ c ∈ ds.map Double.plainChar, Text.isAsciiDigit c := by
  intro c hc
  obtain ⟨d, hd, rfl⟩ := List.mem_map.mp hc
  exact isAsciiDigit_plainChar (digits d hd)

theorem Sign.plain {sign : List Char} (h : Sign sign) : sign.map Double.plainChar = sign := by
  cases h <;> rfl

theorem Mantissa.plain {mantissa : List Char} (h : Mantissa Text.isDigit mantissa) :
    Mantissa Text.isAsciiDigit (mantissa.map Double.plainChar) := by
  cases h with
  | whole digits any => exact .whole (isAsciiDigit_map digits) (by simpa using any)
  | point digits fraction any =>
    rw [List.map_append, List.map_cons]
    exact .point (isAsciiDigit_map digits) (isAsciiDigit_map fraction) (by simpa using any)

theorem Exponent.plain {exponent : List Char} (h : Exponent Text.isDigit exponent) :
    Exponent Text.isAsciiDigit (exponent.map Double.plainChar) := by
  cases h with
  | none => exact .none
  | some letter signed digits any =>
    rw [List.map_cons, List.map_append, signed.plain]
    refine .some ?_ signed (isAsciiDigit_map digits) (by simpa using any)
    rcases letter with rfl | rfl
    · exact Or.inl rfl
    · exact Or.inr rfl

theorem WrittenNumber.plain (h : WrittenNumber Text.isDigit cs) :
    WrittenNumber Text.isAsciiDigit (cs.map Double.plainChar) := by
  obtain ⟨signed, main, power⟩ := h
  rw [List.map_append, List.map_append, signed.plain]
  exact ⟨signed, main.plain, power.plain⟩

end Plain

section Read

variable {c : Char} {cs : List Char}

theorem Sign.mem {sign : List Char} (h : Sign sign) (hc : c ∈ sign) :
    c ∈ ['+', '-', '.', 'e', 'E'] := by
  cases h <;> simp_all

theorem WrittenNumber.mem (h : WrittenNumber digit cs) (hc : c ∈ cs) :
    digit c ∨ c ∈ ['+', '-', '.', 'e', 'E'] := by
  obtain ⟨signed, main, power⟩ := h
  rcases List.mem_append.mp hc with hc | hc
  · exact Or.inr (signed.mem hc)
  · rcases List.mem_append.mp hc with hc | hc
    · cases main with
      | whole digits any => exact Or.inl (digits c hc)
      | point digits fraction any =>
        rcases List.mem_append.mp hc with hc | hc
        · exact Or.inl (digits c hc)
        · rcases List.mem_cons.mp hc with rfl | hc
          · exact Or.inr (by decide)
          · exact Or.inl (fraction c hc)
    · cases power with
      | none => cases hc
      | some letter signed digits any =>
        rcases List.mem_cons.mp hc with rfl | hc
        · rcases letter with rfl | rfl <;> exact Or.inr (by decide)
        · rcases List.mem_append.mp hc with hc | hc
          · exact Or.inr (signed.mem hc)
          · exact Or.inl (digits c hc)

theorem of_toNat (P : Char → Prop) (low high : Nat) (all : ∀ n < high, low ≤ n → P (Char.ofNat n))
    (hlow : low ≤ c.toNat) (hhigh : c.toNat < high) : P c := by
  rw [← Char.ofNat_toNat c]
  exact all c.toNat hhigh hlow

theorem isAsciiDigit_iff : Text.isAsciiDigit c ↔ 48 ≤ c.toNat ∧ c.toNat < 58 := by
  have lower : '0' ≤ c ↔ 48 ≤ c.toNat := Iff.rfl
  have upper : c ≤ '9' ↔ c.toNat ≤ 57 := Iff.rfl
  simp only [Text.isAsciiDigit, Bool.and_eq_true, decide_eq_true_eq, lower, upper]
  omega

theorem isAsciiDigit_tight (h : Text.isAsciiDigit c) : Text.isPlainBlank c = false ∧ c ≠ '_' := by
  obtain ⟨low, high⟩ := isAsciiDigit_iff.mp h
  exact of_toNat (fun c ↦ Text.isPlainBlank c = false ∧ c ≠ '_') 48 58 (by decide) low high

theorem WrittenNumber.ne_nil (h : WrittenNumber digit cs) : cs ≠ [] := by
  obtain ⟨signed, main, power⟩ := h
  obtain ⟨d, rest, rfl, -⟩ := main.head
  simp

theorem WrittenNumber.tight (h : WrittenNumber Text.isAsciiDigit cs) (hc : c ∈ cs) :
    Text.isPlainBlank c = false ∧ c ≠ '_' := by
  rcases h.mem hc with digit | other
  · exact isAsciiDigit_tight digit
  · simp only [List.mem_cons, List.not_mem_nil, or_false] at other
    rcases other with rfl | rfl | rfl | rfl | rfl <;> decide

theorem withoutUnderscores?_eq {previous : Option Char} (quiet : previous ≠ some '_')
    (free : ∀ c ∈ cs, c ≠ '_') : Double.withoutUnderscores? previous cs = some cs := by
  induction cs generalizing previous with
  | nil => simp [Double.withoutUnderscores?, quiet]
  | cons c rest ih =>
    have hc : c ≠ '_' := free c List.mem_cons_self
    have later : Double.withoutUnderscores? (some c) rest = some rest :=
      ih (by simpa using hc) fun d hd ↦ free d (List.mem_cons_of_mem c hd)
    simp [Double.withoutUnderscores?, hc, quiet, later]

theorem readWhole?_eq {negative : Bool} {rest : List Char}
    (hsign : Literal.takeSign cs = (negative, c :: rest)) (hi : c.toLower ≠ 'i')
    (hn : c.toLower ≠ 'n') :
    Double.readWhole? cs = (Literal.scan cs).bind fun found ↦
      if found.2 = [] then some found.1.toDouble else none := by
  have inf : ((c :: rest).map Char.toLower == "inf".toList) = false := by
    simp [show "inf".toList = ['i', 'n', 'f'] from rfl, hi]
  have infinity : ((c :: rest).map Char.toLower == "infinity".toList) = false := by
    simp [show "infinity".toList = ['i', 'n', 'f', 'i', 'n', 'i', 't', 'y'] from rfl, hi]
  have nan : ((c :: rest).map Char.toLower == "nan".toList) = false := by
    simp [show "nan".toList = ['n', 'a', 'n'] from rfl, hn]
  simp only [Double.readWhole?, hsign, inf, infinity, nan, Bool.or_false, Bool.false_eq_true,
    if_false]
  rcases Literal.scan cs with _ | ⟨literal, left⟩
  · rfl
  · cases left <;> rfl

theorem isAsciiDigit_toLower (h : Text.isAsciiDigit c) : c.toLower ≠ 'i' ∧ c.toLower ≠ 'n' := by
  obtain ⟨low, high⟩ := isAsciiDigit_iff.mp h
  exact of_toNat (fun c ↦ c.toLower ≠ 'i' ∧ c.toLower ≠ 'n') 48 58 (by decide) low high

theorem readWhole?_scan (h : WrittenNumber Text.isAsciiDigit cs) {literal : Literal}
    (hscan : Literal.scan cs = some (literal, [])) :
    Double.readWhole? cs = some literal.toDouble := by
  obtain @⟨sign, mantissa, exponent, signed, main, power⟩ := h
  obtain ⟨negative, hsign⟩ := takeSign_written exponent signed main
  obtain ⟨c, rest, rfl, hc⟩ := main.head
  obtain ⟨hi, hn⟩ : c.toLower ≠ 'i' ∧ c.toLower ≠ 'n' := by
    rcases hc with digit | rfl
    · exact isAsciiDigit_toLower digit
    · decide
  rw [readWhole?_eq hsign hi hn, hscan]
  rfl

theorem readWhole?_written (h : WrittenNumber Text.isAsciiDigit cs) :
    ∃ x, Double.readWhole? cs = some x := by
  obtain ⟨literal, hscan⟩ := scan_eq h
  exact ⟨literal.toDouble, readWhole?_scan h hscan⟩

theorem isSeparator_apart (h : isSeparator c) :
    c.toLower ≠ 'i' ∧ c.toLower ≠ 'n' ∧ c ≠ '-' ∧ c ≠ '+' ∧ c ≠ '.' ∧
      c ≠ '_' ∧ Text.isAsciiDigit c = false := by
  simp only [isSeparator, Bool.and_eq_true, decide_eq_true_eq] at h
  exact of_toNat (fun c ↦ c.toLower ≠ 'i' ∧ c.toLower ≠ 'n' ∧ c ≠ '-' ∧ c ≠ '+' ∧ c ≠ '.' ∧
    c ≠ '_' ∧ Text.isAsciiDigit c = false) 28 32 (by decide) h.1 (by omega)

theorem readWhole?_separator {rest : List Char} (h : isSeparator c) :
    Double.readWhole? (c :: rest) = none := by
  obtain ⟨hi, hn, minus, plus, point, -, digit⟩ := isSeparator_apart h
  have hsign : Literal.takeSign (c :: rest) = (false, c :: rest) := by
    simp [Literal.takeSign, minus, plus]
  have hscan : Literal.scan (c :: rest) = none := by
    simp [Literal.scan, hsign, digit, Literal.takeFraction, point]
  rw [readWhole?_eq hsign hi hn, hscan]
  rfl

/-- With plain blanks before it, every written number is read. -/
theorem ofText?_written {blanks : List Char}
    (plain : ∀ c ∈ blanks, Text.isBlank c ∧ isSeparator c = false)
    (h : WrittenNumber Text.isDigit cs) :
    ∃ x, Double.ofText? (String.ofList (blanks ++ cs)) = some x := by
  have off : ∀ c ∈ blanks.map Double.plainChar, Text.isPlainBlank c := by
    intro c hc
    obtain ⟨d, hd, rfl⟩ := List.mem_map.mp hc
    obtain ⟨blank, separator⟩ := plain d hd
    rw [isPlainBlank_plainChar blank, separator]
    rfl
  have stripped := stripChars_append off fun c hc ↦ (h.plain.tight hc).1
  have whole : Double.withoutUnderscores? none (cs.map Double.plainChar) = some _ :=
    withoutUnderscores?_eq (by simp) fun c hc ↦ (h.plain.tight hc).2
  obtain ⟨x, hx⟩ := readWhole?_written h.plain
  refine ⟨x, ?_⟩
  simp only [Double.ofText?, String.toList_ofList, List.map_append, stripped, whole]
  exact hx

theorem ofText?_separator {blanks rest : List Char} (blank : ∀ c ∈ blanks, Text.isBlank c)
    (separator : ∃ c ∈ blanks, isSeparator c) :
    Double.ofText? (String.ofList (blanks ++ rest)) = none := by
  obtain ⟨x, found⟩ := Option.isSome_iff_exists.mp (List.find?_isSome.mpr separator)
  obtain ⟨hx, before, after, rfl, plain⟩ := List.find?_eq_some_iff_append.mp found
  have off : ∀ c ∈ before.map Double.plainChar, Text.isPlainBlank c := by
    intro c hc
    obtain ⟨d, hd, rfl⟩ := List.mem_map.mp hc
    rw [isPlainBlank_plainChar (blank d (List.mem_append_left _ hd))]
    exact plain d hd
  have same : Double.plainChar x = x := by
    simp only [isSeparator, Bool.and_eq_true, decide_eq_true_eq] at hx
    rw [Double.plainChar, if_pos (by omega)]
  have kept : Text.isPlainBlank x = false := by
    rw [← same, isPlainBlank_plainChar (blank x (by simp)), hx]
    rfl
  obtain ⟨tail, stripped⟩ := stripChars_cons off kept
    (after.map Double.plainChar ++ rest.map Double.plainChar)
  have underscore : x ≠ '_' := (isSeparator_apart hx).2.2.2.2.2.1
  simp only [Double.ofText?, String.toList_ofList, List.map_append, List.map_cons, same,
    List.append_assoc, List.cons_append, stripped]
  cases later : Double.withoutUnderscores? (some x) tail with
  | none => simp [Double.withoutUnderscores?, underscore, later]
  | some tail' =>
    simp [Double.withoutUnderscores?, underscore, later, readWhole?_separator hx]

end Read

section Written

variable {c : Char} {cs : List Char}

theorem takeSign_split (cs : List Char) :
    ∃ sign, Sign sign ∧ cs = sign ++ (Literal.takeSign cs).2 := by
  unfold Literal.takeSign
  split
  · exact ⟨['-'], .minus, rfl⟩
  · exact ⟨['+'], .plus, rfl⟩
  · exact ⟨[], .none, rfl⟩

theorem takeFraction_split (cs : List Char) :
    (Literal.takeFraction cs = ([], cs)) ∨
      ∃ fs rest, Literal.takeFraction cs = (fs, rest) ∧ cs = '.' :: (fs ++ rest) ∧
        ∀ c ∈ fs, Text.isAsciiDigit c := by
  unfold Literal.takeFraction
  split
  · next tail =>
    refine .inr ⟨_, _, rfl, ?_, fun c ↦ List.mem_takeWhile_imp⟩
    rw [List.takeWhile_append_dropWhile]
  · exact .inl rfl

theorem exponent_of_takeExponent (h : (Literal.takeExponent cs).2 = []) :
    Exponent Text.isAsciiDigit cs := by
  cases cs with
  | nil => exact .none
  | cons e rest =>
    rw [Literal.takeExponent] at h
    split at h
    · next letter =>
      obtain ⟨sign, signed, same⟩ := takeSign_split rest
      dsimp only at h
      split at h
      · cases h
      · next any =>
        have digits := List.takeWhile_append_dropWhile (p := Text.isAsciiDigit)
          (l := (Literal.takeSign rest).2)
        change (Literal.takeSign rest).2.dropWhile Text.isAsciiDigit = [] at h
        rw [h, List.append_nil] at digits
        rw [same, ← digits]
        exact .some (by simpa using letter) signed (fun c ↦ List.mem_takeWhile_imp)
          (by simpa using any)
    · cases h

theorem written_of_scan {literal : Literal} (h : Literal.scan cs = some (literal, [])) :
    WrittenNumber Text.isAsciiDigit cs := by
  obtain ⟨sign, signed, same⟩ := takeSign_split cs
  have split := List.takeWhile_append_dropWhile (p := Text.isAsciiDigit)
    (l := (Literal.takeSign cs).2)
  rw [Literal.scan] at h
  dsimp only at h
  rw [same, ← split]
  split at h
  · cases h
  · next any =>
    rw [Bool.and_eq_true, List.isEmpty_iff, List.isEmpty_iff] at any
    have whole : ∀ c ∈ (Literal.takeSign cs).2.takeWhile Text.isAsciiDigit, Text.isAsciiDigit c :=
      fun c ↦ List.mem_takeWhile_imp
    have power := exponent_of_takeExponent (congrArg Prod.snd (Option.some.inj h))
    rcases takeFraction_split ((Literal.takeSign cs).2.dropWhile Text.isAsciiDigit) with
      none | ⟨fs, rest, found, point, fraction⟩
    · rw [none] at any power
      exact ⟨signed, .whole whole (by simpa using any), power⟩
    · rw [found] at any power
      rw [point, ← List.cons_append, ← List.append_assoc _ ('.' :: fs)]
      exact ⟨signed, .point whole fraction (Decidable.not_and_iff_or_not.mp any), power⟩

/-- Whether some characters begin with a written number. -/
def BeginsWithNumber (cs : List Char) : Prop :=
  ∃ number rest, cs = number ++ rest ∧ WrittenNumber Text.isAsciiDigit number

theorem begins_of_scan {found : Literal × List Char} (h : Literal.scan cs = some found) :
    BeginsWithNumber cs := by
  obtain ⟨sign, signed, same⟩ := takeSign_split cs
  have split := List.takeWhile_append_dropWhile (p := Text.isAsciiDigit)
    (l := (Literal.takeSign cs).2)
  have whole : ∀ c ∈ (Literal.takeSign cs).2.takeWhile Text.isAsciiDigit, Text.isAsciiDigit c :=
    fun c ↦ List.mem_takeWhile_imp
  rw [Literal.scan] at h
  dsimp only at h
  split at h
  · cases h
  · next any =>
    rw [Bool.and_eq_true, List.isEmpty_iff, List.isEmpty_iff] at any
    rcases takeFraction_split ((Literal.takeSign cs).2.dropWhile Text.isAsciiDigit) with
      none | ⟨fs, rest, found, point, fraction⟩
    · rw [none] at any
      refine ⟨_, (Literal.takeSign cs).2.dropWhile Text.isAsciiDigit, ?_, signed,
        .whole whole (by simpa using any), .none⟩
      rw [List.append_nil, List.append_assoc, split]
      exact same
    · rw [found] at any
      refine ⟨_, rest, ?_, signed, .point whole fraction (Decidable.not_and_iff_or_not.mp any), .none⟩
      rw [List.append_nil, List.append_assoc, List.append_assoc, List.cons_append, ← point, split]
      exact same

theorem free_of_readWhole? {x : Double} (read : Double.readWhole? cs = some x) : ',' ∉ cs := by
  intro inside
  have word {w : List Char} (free : ',' ∉ w)
      (spelled : (Literal.takeSign cs).2.map Char.toLower = w) : False := by
    obtain ⟨sign, signed, same⟩ := takeSign_split cs
    rw [same] at inside
    rcases List.mem_append.mp inside with inside | inside
    · exact absurd (signed.mem inside) (by decide)
    · exact free (spelled ▸ List.mem_map_of_mem (f := Char.toLower) inside)
  rw [Double.readWhole?] at read
  dsimp only at read
  split at read
  · next infinite =>
    rw [Bool.or_eq_true, beq_iff_eq, beq_iff_eq] at infinite
    rcases infinite with short | long
    · exact word (by decide) short
    · exact word (by decide) long
  · split at read
    · next nan => exact word (by decide) (beq_iff_eq.mp nan)
    · split at read
      · next literal scanned =>
        have written := (written_of_scan scanned).mem inside
        revert written
        decide
      · cases read

theorem mem_withoutUnderscores? {previous : Option Char} {ds : List Char}
    (h : Double.withoutUnderscores? previous cs = some ds) (inside : c ∈ cs) (kept : c ≠ '_') :
    c ∈ ds := by
  induction cs generalizing previous ds with
  | nil => cases inside
  | cons d rest ih =>
    rw [Double.withoutUnderscores?] at h
    split at h
    · next underscore =>
      rcases List.mem_cons.mp inside with rfl | inside
      · exact absurd (beq_iff_eq.mp underscore) kept
      · split at h
        · exact ih h inside
        · cases h
    · split at h
      · cases h
      · obtain ⟨es, later, rfl⟩ := Option.map_eq_some_iff.mp h
        rcases List.mem_cons.mp inside with rfl | inside
        · exact List.mem_cons_self
        · exact List.mem_cons_of_mem _ (ih later inside)

end Written

section Followed

variable {c : Char} {cs rest : List Char}

/-- Whether a character may stand in a number behind its sign. -/
def continuesNumber (c : Char) : Bool :=
  Text.isAsciiDigit c || c == '.' || c == 'e' || c == 'E'

theorem not_digit_of_stops (stops : ∀ c ∈ rest.head?, continuesNumber c = false) :
    ∀ c ∈ rest.head?, Text.isAsciiDigit c = false := by
  intro c hc
  have stop := stops c hc
  simp only [continuesNumber, Bool.or_eq_false_iff] at stop
  exact stop.1.1.1

theorem span_followed (cs : List Char) {p : Char → Bool} (outside : ∀ c ∈ rest.head?, p c = false) :
    (cs ++ rest).takeWhile p = cs.takeWhile p ∧
      (cs ++ rest).dropWhile p = cs.dropWhile p ++ rest := by
  induction cs with
  | nil =>
    cases rest with
    | nil => exact ⟨rfl, rfl⟩
    | cons c tail => simp [outside c rfl]
  | cons c cs ih =>
    obtain ⟨taken, dropped⟩ := ih
    cases h : p c <;> simp [h, taken, dropped]

theorem takeSign_followed (some : cs ≠ []) :
    Literal.takeSign (cs ++ rest) =
      ((Literal.takeSign cs).1, (Literal.takeSign cs).2 ++ rest) := by
  obtain ⟨c, tail, rfl⟩ := List.exists_cons_of_ne_nil some
  rw [List.cons_append]
  unfold Literal.takeSign
  split
  · next same =>
    cases same
    rfl
  · next same =>
    cases same
    rfl
  · next minus plus =>
    split
    · next same =>
      cases same
      exact absurd rfl (minus _)
    · next same =>
      cases same
      exact absurd rfl (plus _)
    · rfl

theorem takeFraction_followed (stops : ∀ c ∈ rest.head?, continuesNumber c = false) :
    Literal.takeFraction (cs ++ rest) =
      ((Literal.takeFraction cs).1, (Literal.takeFraction cs).2 ++ rest) := by
  have digit := not_digit_of_stops stops
  cases cs with
  | nil =>
    cases rest with
    | nil => rfl
    | cons c tail =>
      have point : c ≠ '.' := by
        rintro rfl
        exact absurd (stops '.' rfl) (by decide)
      simp [Literal.takeFraction, point]
  | cons c cs =>
    by_cases point : c = '.'
    · subst point
      obtain ⟨taken, dropped⟩ := span_followed cs digit
      simp [Literal.takeFraction, taken, dropped]
    · simp [Literal.takeFraction, point]

theorem takeExponent_followed (stops : ∀ c ∈ rest.head?, continuesNumber c = false) {n : ℤ}
    (taken : Literal.takeExponent cs = (n, [])) : Literal.takeExponent (cs ++ rest) = (n, rest) := by
  have digit := not_digit_of_stops stops
  cases cs with
  | nil =>
    cases taken
    cases rest with
    | nil => rfl
    | cons c tail =>
      have stop := stops c rfl
      simp only [continuesNumber, Bool.or_eq_false_iff] at stop
      simp [Literal.takeExponent, stop]
  | cons e cs =>
    rw [Literal.takeExponent] at taken
    rw [List.cons_append, Literal.takeExponent]
    split at taken
    · next letter =>
      rw [if_pos letter]
      dsimp only at taken ⊢
      split at taken
      · cases taken
      · next any =>
        have some : cs ≠ [] := by
          rintro rfl
          exact any rfl
        obtain ⟨run, left⟩ := span_followed (Literal.takeSign cs).2 digit
        rw [takeSign_followed some]
        dsimp only
        rw [run, left, if_neg any]
        injection taken with same ends
        rw [same, ends, List.nil_append]
    · cases taken

theorem scan_followed (stops : ∀ c ∈ rest.head?, continuesNumber c = false) {literal : Literal}
    (scanned : Literal.scan cs = some (literal, [])) :
    Literal.scan (cs ++ rest) = some (literal, rest) := by
  have digit := not_digit_of_stops stops
  have some : cs ≠ [] := by
    rintro rfl
    cases scanned
  obtain ⟨run, left⟩ := span_followed (Literal.takeSign cs).2 digit
  rw [Literal.scan] at scanned ⊢
  rw [takeSign_followed some]
  dsimp only at scanned ⊢
  rw [run, left, takeFraction_followed stops]
  dsimp only
  split at scanned
  · cases scanned
  · next any =>
    rw [if_neg any]
    generalize read : Literal.takeExponent (Literal.takeFraction
      ((Literal.takeSign cs).2.dropWhile Text.isAsciiDigit)).2 = exponent at scanned
    obtain ⟨n, left⟩ := exponent
    cases scanned
    rw [takeExponent_followed stops read]

end Followed

end CallSearch
