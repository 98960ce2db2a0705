import CallSearch.Compile.Value
import CallSearch.Proofs.Calendar
import CallSearch.Proofs.Double.Reader
import CallSearch.Proofs.Outcome
import CallSearch.Proofs.Text

namespace CallSearch

theorem free_of_ofText? {s : String} {x : Double} (read : Double.ofText? s = some x) :
    ',' ∉ s.toList := by
  intro inside
  obtain ⟨cs, cleaned, read⟩ := Option.bind_eq_some_iff.mp read
  refine free_of_readWhole? read (mem_withoutUnderscores? cleaned ?_ (by decide))
  rw [Text.mem_stripChars_iff (by decide)]
  exact List.mem_map_of_mem (f := Double.plainChar) inside

namespace Compile

variable {α β : Type} {now : Timestamp}

def Stops (x : Except Failure α) : Prop := ∃ stop, x = .error (.stop stop)

@[simp] theorem stops_bind_iff {x : Except Failure α} {f : α → Except Failure β} :
    Stops (x >>= f) ↔ Stops x ∨ ∃ a, x = .ok a ∧ Stops (f a) := by
  cases x with
  | error e => simp [Stops, bind, Except.bind]
  | ok a => simp [Stops, bind, Except.bind]

@[simp] theorem stops_map_iff {x : Except Failure α} {f : α → β} : Stops (x.map f) ↔ Stops x := by
  cases x with
  | error e => simp [Stops, Except.map]
  | ok a => simp [Stops, Except.map]

@[simp] theorem stops_mapped_iff {x : Except Failure α} {f : α → β} :
    Stops (f <$> x) ↔ Stops x :=
  stops_map_iff

@[simp] theorem not_stops_ok (a : α) : ¬Stops (.ok a) := by
  simp [Stops]

@[simp] theorem not_stops_pure (a : α) : ¬Stops (pure a) :=
  not_stops_ok a

@[simp] theorem not_stops_fault (fault : RuleFault) :
    ¬Stops (.error (.fault fault) : Except Failure α) := by
  simp [Stops]

@[simp] theorem stops_dayOr_iff {day? : Option Date} : Stops (dayOr day?) ↔ day? = none := by
  cases day? <;> simp [Stops, dayOr]

def NamesNoDay (now : Timestamp) (raw : String) : Prop :=
  Text.lower (Text.strip raw) = "yesterday" ∧ now.date.IsFirst

@[simp] theorem stops_parseDay_iff {raw : String} : Stops (parseDay now raw) ↔ NamesNoDay now raw := by
  unfold parseDay NamesNoDay
  by_cases today : Text.lower (Text.strip raw) = "today"
  · simp [today, not_stops_ok]
  · by_cases yesterday : Text.lower (Text.strip raw) = "yesterday"
    · simp [yesterday, stops_dayOr_iff, Date.previous?_eq_none_iff]
    · simp only [beq_iff_eq, today, yesterday, if_false, false_and, iff_false]
      split
      · exact not_stops_ok _
      · exact not_stops_fault _

@[simp] theorem not_stops_parseNumber (raw : String) : ¬Stops (parseNumber raw) := by
  simp only [parseNumber]
  generalize (if isWhole raw.toList then _ else _ : Option Number) = number?
  cases number? <;> simp [Stops]

@[simp] theorem not_stops_parseRange (raw : String) : ¬Stops (parseRange raw) := by
  unfold parseRange
  split
  · split
    · exact not_stops_fault _
    · exact not_stops_ok _
  · exact not_stops_fault _

section Range

variable {raw low high : String} {n : Number}

theorem free_of_parseNumber (parsed : parseNumber raw = .ok n) : ',' ∉ raw.toList := by
  intro inside
  unfold parseNumber at parsed
  dsimp only at parsed
  split at parsed
  · next whole =>
    obtain ⟨sign, signed, same⟩ := takeSign_split raw.toList
    rw [isWhole, Bool.and_eq_true] at whole
    rw [same] at inside
    rcases List.mem_append.mp inside with inside | inside
    · exact absurd (signed.mem inside) (by decide)
    · exact absurd (List.all_eq_true.mp whole.2 _ inside) (by decide)
  · cases read : Double.ofText? raw with
    | none =>
      rw [read] at parsed
      cases parsed
    | some x => exact free_of_ofText? read inside

theorem isBlankText_of_parseNumber (parsed : parseNumber (Text.strip raw) = .ok n) :
    Text.isBlankText raw = false := by
  by_contra blank
  rw [Bool.not_eq_false] at blank
  rw [Text.strip_of_isBlankText blank] at parsed
  cases parsed

theorem parseRange_eq (free : ',' ∉ low.toList) (first : Text.isBlankText low = false)
    (last : Text.isBlankText high = false) :
    parseRange (low ++ "," ++ high) = .ok (Text.strip low, Text.strip high) := by
  have cut : Text.cut ',' (low ++ "," ++ high) = (low, some high) := by
    have chars : (low ++ "," ++ high).toList = low.toList ++ ',' :: high.toList := by simp
    rw [Text.cut, chars, Text.cutFirst_append _ free]
    simp
  simp [parseRange, cut, first, last]

end Range

section LeadingNumber

variable {cs : List Char}

theorem sign_take (cs : List Char) : Sign ((cs.take 1).takeWhile fun c ↦ c == '+' || c == '-') := by
  cases cs with
  | nil => exact .none
  | cons c rest =>
    by_cases plus : c = '+'
    · subst plus
      exact .plus
    · by_cases minus : c = '-'
      · subst minus
        exact .minus
      · simpa [plus, minus] using Sign.none

theorem mem_digits {c : Char} (h : c ∈ cs.takeWhile Text.isDigit) : Text.isDigit c :=
  List.mem_takeWhile_imp h

theorem mantissa_part (cs : List Char) :
    mantissaPart cs = [] ∨ Mantissa Text.isDigit (mantissaPart cs) := by
  unfold mantissaPart
  dsimp only
  split
  · split
    · exact Or.inl rfl
    · next both =>
      refine Or.inr (.point (fun c ↦ mem_digits) (fun c ↦ mem_digits) ?_)
      rw [Bool.and_eq_true, List.isEmpty_iff, List.isEmpty_iff] at both
      exact Decidable.not_and_iff_or_not.mp both
  · by_cases any : cs.takeWhile Text.isDigit = []
    · exact Or.inl any
    · exact Or.inr (.whole (fun c ↦ mem_digits) any)

theorem takeWhile_of_short {p : Char → Bool} (short : (cs.takeWhile p).length ≤ 1) :
    cs.takeWhile p = (cs.take 1).takeWhile p := by
  cases cs with
  | nil => rfl
  | cons c rest =>
    by_cases hc : p c
    · rw [List.takeWhile_cons_of_pos hc] at short ⊢
      have beyond : rest.takeWhile p = [] := List.length_eq_zero_iff.mp (by simpa using short)
      simp [beyond, hc]
    · simp [hc]

theorem exponent_part (cs : List Char) : Exponent Text.isDigit (exponentPart cs) := by
  unfold exponentPart
  split
  · next e rest =>
    dsimp only
    split
    · next letter =>
      split
      · next found =>
        rw [Bool.and_eq_true, decide_eq_true_eq, Bool.not_eq_true', List.isEmpty_eq_false_iff] at found
        refine .some (by simpa using letter) ?_ (fun c ↦ mem_digits) found.2
        rw [takeWhile_of_short found.1]
        exact sign_take rest
      · exact .none
    · exact .none
  · exact .none

theorem numberPart?_eq {part : List Char} (h : numberPart? cs = some part) :
    ∃ body, part = cs.takeWhile Text.isBlank ++ body ∧ WrittenNumber Text.isDigit body := by
  unfold numberPart? at h
  dsimp only at h
  split at h
  · cases h
  · next any =>
    cases h
    rw [List.isEmpty_iff] at any
    refine ⟨_, List.append_assoc _ _ _ |>.trans (List.append_assoc _ _ _), ?_⟩
    exact ⟨sign_take _, (mantissa_part _).resolve_left any, exponent_part _⟩

/-- The number that a text begins with cannot be read exactly if there is an information separator
among the blanks before it. -/
theorem leadingNumber_error_iff (s : String) :
    (∃ stop, leadingNumber s = .error stop) ↔
      (numberPart? s.toList).isSome ∧ ∃ c ∈ s.toList.takeWhile Text.isBlank, isSeparator c := by
  unfold leadingNumber
  cases found : numberPart? s.toList with
  | none => simp
  | some part =>
    obtain ⟨body, rfl, written⟩ := numberPart?_eq found
    have blank : ∀ c ∈ s.toList.takeWhile Text.isBlank, Text.isBlank c :=
      fun c hc ↦ List.mem_takeWhile_imp hc
    by_cases separator : ∃ c ∈ s.toList.takeWhile Text.isBlank, isSeparator c
    · simp only [ofText?_separator blank separator, separator]
      simp
    · have plain : ∀ c ∈ s.toList.takeWhile Text.isBlank,
          Text.isBlank c ∧ isSeparator c = false :=
        fun c hc ↦ ⟨blank c hc, Bool.eq_false_iff.mpr fun hs ↦ separator ⟨c, hc, hs⟩⟩
      obtain ⟨x, hx⟩ := ofText?_written plain written
      simp only [hx, separator]
      simp

end LeadingNumber

end Compile

end CallSearch
