import CallSearch.Proofs.Search.Token

namespace CallSearch.Search

/-- Pieces of a text with a gap before them and a gap behind each. Gaps are blank, and a gap between
two pieces is not empty. -/
structure Layout where
  lead : List Char
  runs : List (List Char × List Char)
  blank_lead : ∀ c ∈ lead, Text.isBlank c
  blank_gap : ∀ run ∈ runs, ∀ c ∈ run.2, Text.isBlank c
  apart : ∀ run ∈ runs.dropLast, run.2 ≠ []

namespace Layout

variable {layout : Layout} {c : Char}

def pieces (layout : Layout) : List (List Char) := layout.runs.map Prod.fst

def text (layout : Layout) : List Char :=
  layout.lead ++ layout.runs.flatMap fun run ↦ run.1 ++ run.2

def empty : Layout := ⟨[], [], by simp, by simp, by simp⟩

def widen (layout : Layout) (blank : Text.isBlank c) : Layout where
  lead := c :: layout.lead
  runs := layout.runs
  blank_lead := by
    rw [List.forall_mem_cons]
    exact ⟨blank, layout.blank_lead⟩
  blank_gap := layout.blank_gap
  apart := layout.apart

def push (layout : Layout) (piece : List Char)
    (apart : layout.pieces ≠ [] → layout.lead ≠ []) : Layout where
  lead := []
  runs := (piece, layout.lead) :: layout.runs
  blank_lead := by simp
  blank_gap := by
    rw [List.forall_mem_cons]
    exact ⟨layout.blank_lead, layout.blank_gap⟩
  apart := by
    cases others : layout.runs with
    | nil => simp
    | cons run rest =>
      rw [List.dropLast_cons_of_ne_nil (List.cons_ne_nil run rest), List.forall_mem_cons, ← others]
      exact ⟨apart (by simp [pieces, others]), layout.apart⟩

@[simp] theorem pieces_widen (blank : Text.isBlank c) :
    (layout.widen blank).pieces = layout.pieces := rfl

@[simp] theorem text_widen (blank : Text.isBlank c) :
    (layout.widen blank).text = c :: layout.text := rfl

theorem lead_widen_ne_nil (layout : Layout) (blank : Text.isBlank c) :
    (layout.widen blank).lead ≠ [] :=
  List.cons_ne_nil c layout.lead

@[simp] theorem pieces_push {piece : List Char} (apart : layout.pieces ≠ [] → layout.lead ≠ []) :
    (layout.push piece apart).pieces = piece :: layout.pieces := rfl

@[simp] theorem text_push {piece : List Char} (apart : layout.pieces ≠ [] → layout.lead ≠ []) :
    (layout.push piece apart).text = piece ++ layout.text := by
  simp [push, text]

theorem text_of_pieces_eq_nil (layout : Layout) (none : layout.pieces = []) :
    layout.text = layout.lead := by
  rw [pieces, List.map_eq_nil_iff] at none
  rw [text, none, List.flatMap_nil, List.append_nil]

theorem exists_rest (layout : Layout) {piece : List Char} {others : List (List Char)}
    (parts : layout.pieces = piece :: others) :
    ∃ rest : Layout, rest.pieces = others ∧ layout.text = layout.lead ++ (piece ++ rest.text) ∧
      (rest.pieces ≠ [] → rest.lead ≠ []) := by
  obtain ⟨lead, runs, blank_lead, blank_gap, apart⟩ := layout
  obtain ⟨⟨first, gap⟩, runs, rfl, rfl, rfl⟩ := List.map_eq_cons_iff.mp parts
  rw [List.forall_mem_cons] at blank_gap
  have later (any : runs ≠ []) : gap ≠ [] ∧ ∀ run ∈ runs.dropLast, run.2 ≠ [] := by
    rwa [List.dropLast_cons_of_ne_nil any, List.forall_mem_cons] at apart
  refine ⟨⟨gap, runs, blank_gap.1, blank_gap.2, ?_⟩, rfl, by simp [text], fun any ↦ ?_⟩
  · by_cases any : runs = []
    · simp [any]
    · exact (later any).2
  · exact (later (by simpa [pieces] using any)).1

theorem mem_text_iff (dense : Text.isBlank c = false) :
    c ∈ layout.text ↔ ∃ piece ∈ layout.pieces, c ∈ piece := by
  have lead : c ∉ layout.lead := fun inside ↦ by simp [layout.blank_lead c inside] at dense
  have gap (run) (among : run ∈ layout.runs) : c ∉ run.2 :=
    fun inside ↦ by simp [layout.blank_gap run among c inside] at dense
  rw [text, List.mem_append, List.mem_flatMap, or_iff_right lead]
  simp only [pieces, List.mem_map, exists_exists_and_eq_and, List.mem_append]
  exact exists_congr fun run ↦ and_congr_right fun among ↦ or_iff_left (gap run among)

end Layout

/-- Whether characters are a token. Blanks stand only in sections between two quotes of one kind, and
a quote that none of its kind follows stands for itself. -/
inductive Solid : List Char → Prop
  | nil : Solid []
  | plain {c : Char} {rest : List Char} (dense : Text.isBlank c = false)
      (single : isQuote c → c ∉ rest) (solid : Solid rest) : Solid (c :: rest)
  | quoted {quote : Char} {body rest : List Char} (opens : isQuote quote) (free : quote ∉ body)
      (solid : Solid rest) : Solid (quote :: (body ++ quote :: rest))

/-- How a text is read, from inside a section or outside of one: the rest of the token that it begins
in, and the tokens behind it. A section is opened only where its quote occurs again. -/
inductive Scanned : Option Char → List Char → List Char → List (List Char) → Prop
  | ending : Scanned none [] [] []
  | gap {c : Char} {cs piece : List Char} {tokens : List (List Char)} (blank : Text.isBlank c)
      (rest : Scanned none cs piece tokens) : Scanned none (c :: cs) [] (consToken piece tokens)
  | plain {c : Char} {cs piece : List Char} {tokens : List (List Char)}
      (dense : Text.isBlank c = false) (single : isQuote c → c ∉ cs)
      (rest : Scanned none cs piece tokens) : Scanned none (c :: cs) (c :: piece) tokens
  | opening {quote : Char} {cs piece : List Char} {tokens : List (List Char)}
      (opens : isQuote quote) (closes : quote ∈ cs) (rest : Scanned (some quote) cs piece tokens) :
      Scanned none (quote :: cs) (quote :: piece) tokens
  | inside {quote c : Char} {cs piece : List Char} {tokens : List (List Char)} (other : c ≠ quote)
      (rest : Scanned (some quote) cs piece tokens) :
      Scanned (some quote) (c :: cs) (c :: piece) tokens
  | closing {quote : Char} {cs piece : List Char} {tokens : List (List Char)}
      (rest : Scanned none cs piece tokens) :
      Scanned (some quote) (quote :: cs) (quote :: piece) tokens

variable {quote? : Option Char} {cs piece : List Char} {ts : List (List Char)}

theorem scanned (quote? : Option Char) (cs : List Char) (closes : ∀ quote ∈ quote?, quote ∈ cs) :
    Scanned quote? cs (tokensFrom quote? cs).1 (tokensFrom quote? cs).2 := by
  induction cs generalizing quote? with
  | nil =>
    cases quote? with
    | none => exact .ending
    | some quote => simp at closes
  | cons c rest ih =>
    cases quote? with
    | some quote =>
      by_cases same : c = quote
      · subst same
        simpa [tokensFrom] using Scanned.closing (ih none (by simp))
      · have closes : quote ∈ rest := by simpa [Ne.symm same] using closes
        simpa [tokensFrom, same] using Scanned.inside same (ih (some quote) (by simpa))
    | none =>
      by_cases blank : Text.isBlank c
      · simpa [tokensFrom, blank] using Scanned.gap blank (ih none (by simp))
      · have dense : Text.isBlank c = false := Bool.eq_false_iff.mpr blank
        by_cases opens : isQuote c ∧ c ∈ rest
        · have quoted := ih (some c) (by simpa using opens.2)
          simpa [tokensFrom, blank, opens] using Scanned.opening opens.1 opens.2 quoted
        · have single : isQuote c → c ∉ rest := not_and.mp opens
          have alone := ih none (by simp)
          simpa [tokensFrom, blank, if_neg opens] using Scanned.plain dense single alone

theorem Scanned.tokensFrom_eq (h : Scanned quote? cs piece ts) :
    tokensFrom quote? cs = (piece, ts) := by
  induction h with
  | ending => rfl
  | gap blank rest ih => simp [tokensFrom, blank, ih]
  | plain dense single rest ih =>
    have alone := not_and.mpr single
    simp [tokensFrom, dense, if_neg alone, ih]
  | opening opens closes rest ih => simp [tokensFrom, isBlank_quote opens, opens, closes, ih]
  | inside other rest ih => simp [tokensFrom, other, ih]
  | closing rest ih => simp [tokensFrom, ih]

/-- Every text is made of its tokens and gaps. -/
theorem Scanned.layout (h : Scanned quote? cs piece ts) :
    ∃ layout : Layout, layout.pieces = ts ∧ cs = piece ++ layout.text ∧
      (layout.pieces ≠ [] → layout.lead ≠ []) := by
  induction h with
  | ending => exact ⟨.empty, rfl, rfl, fun any ↦ absurd rfl any⟩
  | @gap c cs piece tokens blank rest ih =>
    obtain ⟨layout, rfl, rfl, apart⟩ := ih
    by_cases none : piece = []
    · subst none
      exact ⟨layout.widen blank, rfl, rfl, fun _ ↦ layout.lead_widen_ne_nil blank⟩
    · refine ⟨(layout.push piece apart).widen blank, ?_, by simp,
        fun _ ↦ Layout.lead_widen_ne_nil _ blank⟩
      simp [consToken, none]
  | plain dense single rest ih | opening opens closes rest ih | inside other rest ih
  | closing rest ih =>
    obtain ⟨layout, pieces, rfl, apart⟩ := ih
    exact ⟨layout, pieces, rfl, apart⟩

def Completes : Option Char → List Char → Prop
  | none, piece => Solid piece
  | some quote, piece =>
    ∃ body rest, piece = body ++ quote :: rest ∧ quote ∉ body ∧ Solid rest

theorem Scanned.solid (h : Scanned quote? cs piece ts) :
    Completes quote? piece ∧ ∀ token ∈ ts, token ≠ [] ∧ Solid token := by
  induction h with
  | ending => exact ⟨.nil, by simp⟩
  | @gap c cs piece tokens blank rest ih =>
    refine ⟨.nil, ?_⟩
    unfold consToken
    split
    · exact ih.2
    · next any =>
      rw [List.forall_mem_cons]
      exact ⟨⟨by simpa using any, ih.1⟩, ih.2⟩
  | plain dense single rest ih =>
    obtain ⟨layout, -, rfl, -⟩ := rest.layout
    exact ⟨.plain dense (fun quote inside ↦ single quote (List.mem_append_left _ inside)) ih.1, ih.2⟩
  | opening opens closes rest ih =>
    obtain ⟨⟨body, tail, rfl, free, solid⟩, others⟩ := ih
    exact ⟨.quoted opens free solid, others⟩
  | @inside quote c cs piece tokens other rest ih =>
    obtain ⟨⟨body, tail, rfl, free, solid⟩, others⟩ := ih
    refine ⟨⟨c :: body, tail, rfl, ?_, solid⟩, others⟩
    rw [List.mem_cons, not_or]
    exact ⟨Ne.symm other, free⟩
  | @closing quote cs piece tokens rest ih => exact ⟨⟨[], piece, rfl, by simp, ih.1⟩, ih.2⟩

theorem Scanned.blanks {gap : List Char} (h : Scanned none cs piece ts)
    (blank : ∀ c ∈ gap, Text.isBlank c) (any : gap ≠ []) :
    Scanned none (gap ++ cs) [] (consToken piece ts) := by
  induction gap with
  | nil => exact absurd rfl any
  | cons c rest ih =>
    rw [List.forall_mem_cons] at blank
    cases rest with
    | nil => exact .gap blank.1 h
    | cons d rest =>
      -- behind the first blank the piece is empty and adds no token
      have more := Scanned.gap blank.1 (ih blank.2 (List.cons_ne_nil d rest))
      exact more

variable {layout : Layout}

theorem Scanned.mem_iff (h : Scanned quote? cs piece ts) (same : layout.pieces = ts) {c : Char}
    (dense : Text.isBlank c = false) : c ∈ piece ++ layout.text ↔ c ∈ cs := by
  obtain ⟨found, pieces, rfl, -⟩ := h.layout
  rw [List.mem_append, List.mem_append, Layout.mem_text_iff dense, Layout.mem_text_iff dense, same,
    pieces]

/-- The same tokens are read with other gaps between them. What is not blank stays, so that a quote
finds one of its kind behind it exactly if it did before. -/
theorem Scanned.respaced (h : Scanned quote? cs piece ts) (layout : Layout)
    (same : layout.pieces = ts) (apart : layout.pieces ≠ [] → layout.lead ≠ []) :
    Scanned quote? (piece ++ layout.text) piece ts := by
  induction h generalizing layout with
  | ending =>
    rw [layout.text_of_pieces_eq_nil same]
    by_cases none : layout.lead = []
    · rw [none]
      exact .ending
    · simpa [consToken] using Scanned.ending.blanks layout.blank_lead none
  | @gap c cs piece tokens blank rest ih =>
    by_cases none : piece = []
    · subst none
      exact ih layout same apart
    · have first : consToken piece tokens = piece :: tokens := by simp [consToken, none]
      obtain ⟨behind, pieces, text, apart'⟩ := layout.exists_rest (same.trans first)
      rw [List.nil_append, text]
      exact (ih behind pieces apart').blanks layout.blank_lead (apart (by simp [same, first]))
  | plain dense single rest ih =>
    refine .plain dense (fun quote inside ↦ ?_) (ih layout same apart)
    exact single quote ((rest.mem_iff same dense).mp inside)
  | opening opens closes rest ih =>
    have closes := (rest.mem_iff same (isBlank_quote opens)).mpr closes
    exact .opening opens closes (ih layout same apart)
  | inside other rest ih => exact .inside other (ih layout same apart)
  | closing rest ih => exact .closing (ih layout same apart)

theorem scanned_tokens (cs : List Char) : Scanned none (' ' :: cs) [] (tokens cs) :=
  .gap (by decide) (scanned none cs (by simp))

theorem tokens_of_scanned (h : Scanned none (' ' :: cs) [] ts) : tokens cs = ts := by
  have read := h.tokensFrom_eq
  rw [tokensFrom_blank (by decide)] at read
  exact congrArg Prod.snd read

theorem tokens_layout (same : layout.pieces = tokens cs) : tokens layout.text = tokens cs := by
  have blank : Text.isBlank ' ' := by decide
  refine tokens_of_scanned ?_
  exact (scanned_tokens cs).respaced (layout.widen blank) same fun _ ↦ layout.lead_widen_ne_nil blank

theorem exists_layout_spaced (pieces : List (List Char)) :
    ∃ layout : Layout, layout.pieces = pieces ∧ layout.text = [' '].intercalate pieces := by
  induction pieces with
  | nil => exact ⟨.empty, rfl, rfl⟩
  | cons piece rest ih =>
    obtain ⟨layout, rfl, text⟩ := ih
    by_cases last : layout.pieces = []
    · refine ⟨Layout.empty.push piece (fun any ↦ absurd rfl any), ?_, ?_⟩
      · rw [last]
        rfl
      · rw [Layout.text_push, last, List.intercalate_singleton]
        exact List.append_nil piece
    · have blank : Text.isBlank ' ' := by decide
      refine ⟨(layout.widen blank).push piece fun _ ↦ layout.lead_widen_ne_nil blank, rfl, ?_⟩
      obtain ⟨next, others, parts⟩ := List.exists_cons_of_ne_nil last
      rw [Layout.text_push, Layout.text_widen, text, parts, List.intercalate_cons_cons]
      simp

theorem exists_layout (cs : List Char) :
    ∃ layout : Layout, layout.text = cs ∧ layout.pieces = tokens cs := by
  have whole := scanned none cs (by simp)
  obtain ⟨layout, pieces, text, apart⟩ := whole.layout
  unfold tokens consToken
  split
  · next none =>
    rw [List.isEmpty_iff] at none
    rw [none] at text
    exact ⟨layout, text.symm, pieces⟩
  · exact ⟨layout.push _ apart, by rw [Layout.text_push, ← text], by rw [Layout.pieces_push, pieces]⟩

/-- A text is its tokens, in their order, with gaps of blanks around them. A token is not empty, and
blanks in it stand between two quotes of one kind. Any text with the same tokens and other gaps has
the same tokens, and so have the tokens with single spaces between them. -/
theorem tokenize_layout (s : String) :
    (∃ layout : Layout, layout.text = s.toList ∧
        layout.pieces = (tokenize s).map String.toList) ∧
      (∀ token ∈ tokenize s, token ≠ "" ∧ Solid token.toList) ∧
      (∀ layout : Layout, layout.pieces = (tokenize s).map String.toList →
        tokenize (String.ofList layout.text) = tokenize s) ∧
      tokenize (" ".intercalate (tokenize s)) = tokenize s := by
  have letters : (tokenize s).map String.toList = tokens s.toList := by simp [tokenize]
  have again (layout : Layout) (same : layout.pieces = (tokenize s).map String.toList) :
      tokenize (String.ofList layout.text) = tokenize s := by
    rw [tokenize, String.toList_ofList, tokens_layout (same.trans letters)]
    rfl
  refine ⟨?_, fun token inside ↦ ?_, again, ?_⟩
  · rw [letters]
    exact exists_layout s.toList
  · have inside := List.mem_map_of_mem (f := String.toList) inside
    rw [letters] at inside
    obtain ⟨any, solid⟩ := (scanned_tokens s.toList).solid.2 token.toList inside
    exact ⟨by simpa using any, solid⟩
  · obtain ⟨layout, pieces, text⟩ := exists_layout_spaced ((tokenize s).map String.toList)
    have joined : String.ofList layout.text = " ".intercalate (tokenize s) := by
      apply String.toList_inj.mp
      rw [String.toList_ofList, String.toList_intercalate, text]
      rfl
    rw [← joined]
    exact again layout pieces

example : tokenize "it's \"a b\"c\t\"d" = ["it's", "\"a b\"c", "\"d"] := by decide +kernel

end CallSearch.Search
