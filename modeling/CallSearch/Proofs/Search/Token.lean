import Mathlib.Data.List.Basic
import CallSearch.Search.Token

namespace CallSearch.Search

/-- Whether characters that begin inside a token belong to it, whatever follows them. -/
def Unbroken (word : List Char) : Prop :=
  ∀ rest, tokensFrom none (word ++ rest) =
    (word ++ (tokensFrom none rest).1, (tokensFrom none rest).2)

variable {word other cs : List Char} {w : Char}

theorem Unbroken.nil : Unbroken [] := fun _ ↦ rfl

theorem Unbroken.append (first : Unbroken word) (second : Unbroken other) :
    Unbroken (word ++ other) := by
  intro rest
  rw [List.append_assoc, first, second, List.append_assoc]

theorem Unbroken.singleton {c : Char} (blank : Text.isBlank c = false) (quote : isQuote c = false) :
    Unbroken [c] := by
  intro rest
  rw [List.singleton_append, tokensFrom]
  simp [blank, quote]

theorem Unbroken.of_plain (plain : ∀ c ∈ word, Text.isBlank c = false ∧ isQuote c = false) :
    Unbroken word := by
  induction word with
  | nil => exact .nil
  | cons c rest ih =>
    rw [List.forall_mem_cons] at plain
    exact (Unbroken.singleton plain.1.1 plain.1.2).append (ih plain.2)

theorem Unbroken.of_all (plain : word.all fun c ↦ !Text.isBlank c && !isQuote c) :
    Unbroken word :=
  .of_plain (by simpa using plain)

theorem tokensFrom_quoted {quote : Char} {body : List Char} (free : quote ∉ body)
    (rest : List Char) :
    tokensFrom (some quote) (body ++ quote :: rest) =
      (body ++ quote :: (tokensFrom none rest).1, (tokensFrom none rest).2) := by
  induction body with
  | nil => simp [tokensFrom]
  | cons c tail ih =>
    rw [List.mem_cons, not_or] at free
    rw [List.cons_append, tokensFrom, beq_false_of_ne (Ne.symm free.1)]
    simp [ih free.2]

theorem isBlank_quote {c : Char} (h : isQuote c) : Text.isBlank c = false := by
  rw [isQuote, Bool.or_eq_true, beq_iff_eq, beq_iff_eq] at h
  obtain rfl | rfl := h <;> decide

theorem Unbroken.quoted {quote : Char} {body : List Char} (h : isQuote quote)
    (free : quote ∉ body) : Unbroken (quote :: (body ++ [quote])) := by
  intro rest
  rw [List.cons_append, List.append_assoc, List.singleton_append, tokensFrom, isBlank_quote h]
  simp [h, tokensFrom_quoted free]

theorem tokens_unbroken (whole : Unbroken word) (any : word ≠ []) : tokens word = [word] := by
  have := whole []
  rw [List.append_nil] at this
  simp [tokens, this, tokensFrom, consToken, any]

theorem tokensFrom_blank (blank : Text.isBlank w) (rest : List Char) :
    tokensFrom none (w :: rest) = ([], tokens rest) := by
  rw [tokensFrom]
  simp [blank, tokens]

theorem tokens_append (whole : Unbroken word) (any : word ≠ []) (rest : List Char) :
    tokens (word ++ ' ' :: rest) = word :: tokens rest := by
  rw [tokens, whole, tokensFrom_blank (by decide)]
  simp [consToken, any]

theorem tokens_intercalate {joint : List Char} {words : List (List Char)} (link : Unbroken joint)
    (joins : joint ≠ []) (whole : ∀ word ∈ words, Unbroken word ∧ word ≠ []) :
    tokens ((' ' :: (joint ++ [' '])).intercalate words) = words.intersperse joint := by
  induction words with
  | nil => rfl
  | cons word rest ih =>
    rw [List.forall_mem_cons] at whole
    obtain ⟨⟨first, any⟩, whole⟩ := whole
    cases rest with
    | nil => rw [List.intercalate_singleton, tokens_unbroken first any, List.intersperse_singleton]
    | cons next rest =>
      rw [List.intercalate_cons_cons, List.append_assoc, List.cons_append,
        tokens_append first any, List.append_assoc, List.singleton_append,
        tokens_append link joins, ih whole, List.intersperse_cons_cons]

/-- Whether a text is made of sections between two quotes of one kind and of characters other than
quotes, so that none of its quotes is left to stand for itself. -/
inductive Closed : List Char → Prop
  | nil : Closed []
  | plain {c : Char} {rest : List Char} (bare : isQuote c = false) (closed : Closed rest) :
      Closed (c :: rest)
  | quoted {quote : Char} {body rest : List Char} (opens : isQuote quote) (free : quote ∉ body)
      (closed : Closed rest) : Closed (quote :: (body ++ quote :: rest))

theorem consToken_append (piece : List Char) (first second : List (List Char)) :
    consToken piece (first ++ second) = consToken piece first ++ second := by
  unfold consToken
  split <;> rfl

theorem tokensFrom_closed (closed : Closed cs) (blank : Text.isBlank w) (rest : List Char) :
    tokensFrom none (cs ++ w :: rest) =
      ((tokensFrom none cs).1, (tokensFrom none cs).2 ++ tokens rest) := by
  induction closed with
  | nil => exact tokensFrom_blank blank rest
  | @plain c tail bare closed ih =>
    by_cases gap : Text.isBlank c
    · rw [List.cons_append, tokensFrom_blank gap, tokensFrom_blank gap, tokens, ih,
        consToken_append]
      rfl
    · have whole := Unbroken.singleton (Bool.eq_false_iff.mpr gap) bare
      rw [← List.singleton_append, List.append_assoc, whole, whole, ih]
  | @quoted quote body tail opens free closed ih =>
    have whole := Unbroken.quoted opens free
    have parts : quote :: (body ++ quote :: tail) = quote :: (body ++ [quote]) ++ tail := by simp
    rw [parts, List.append_assoc, whole, whole, ih]

theorem tokens_closed (closed : Closed cs) (blank : Text.isBlank w) (rest : List Char) :
    tokens (cs ++ w :: rest) = tokens cs ++ tokens rest := by
  rw [tokens, tokensFrom_closed closed blank, consToken_append]
  rfl

end CallSearch.Search
