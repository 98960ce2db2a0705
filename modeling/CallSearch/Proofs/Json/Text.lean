import CallSearch.Json.Printer
import CallSearch.Proofs.Double.Text

namespace CallSearch.Json

@[elab_as_elim]
theorem nested {motive : Json → Prop} (null : motive .null) (bool : ∀ b, motive (.bool b))
    (int : ∀ n, motive (.int n)) (real : ∀ x, motive (.real x)) (str : ∀ s, motive (.str s))
    (arr : ∀ items, (∀ item ∈ items, motive item) → motive (.arr items))
    (obj : ∀ members, (∀ member ∈ members, motive member.2) → motive (.obj members)) (a : Json) :
    motive a :=
  match a with
  | .null => null
  | .bool b => bool b
  | .int n => int n
  | .real x => real x
  | .str s => str s
  | .arr items => arr items fun item _ ↦ nested null bool int real str arr obj item
  | .obj members => obj members fun member _ ↦ nested null bool int real str arr obj member.2
termination_by sizeOf a
decreasing_by
  · have := List.sizeOf_lt_of_mem ‹item ∈ items›
    simp only [Json.arr.sizeOf_spec]
    omega
  · have := List.sizeOf_lt_of_mem ‹member ∈ members›
    obtain ⟨name, value⟩ := member
    simp only [Json.obj.sizeOf_spec, Prod.mk.sizeOf_spec] at this ⊢
    omega

section Escapes

def hexValue (c : Char) : ℕ := if c.toNat < 58 then c.toNat - 48 else c.toNat - 87

def unitOf (cs : List Char) : ℕ := cs.foldl (fun n c ↦ 16 * n + hexValue c) 0

theorem hexValue_hexDigit : ∀ n < 16, hexValue (Text.hexDigit n) = n := by decide

theorem length_hexDigits (width n : ℕ) : (Text.hexDigits width n).length = width := by
  induction width generalizing n with
  | zero => rfl
  | succ width ih => rw [Text.hexDigits, List.length_append, ih, List.length_singleton]

theorem unitOf_hexDigits (width n : ℕ) : unitOf (Text.hexDigits width n) = n % 16 ^ width := by
  induction width generalizing n with
  | zero => rw [Nat.pow_zero, Nat.mod_one]; rfl
  | succ width ih =>
    have last := hexValue_hexDigit (n % 16) (Nat.mod_lt n (by decide))
    rw [Text.hexDigits, unitOf, List.foldl_append]
    change 16 * unitOf (Text.hexDigits width (n / 16)) + hexValue (Text.hexDigit (n % 16)) = _
    rw [ih, last, Nat.pow_succ', Nat.mod_mul, Nat.add_comm]

def escapedBy : Char → Char
  | 'n' => '\n'
  | 'r' => '\r'
  | 't' => '\t'
  | 'b' => '\x08'
  | 'f' => '\x0c'
  | c => c

/-- Takes a character off the start of a text with escapes. -/
def unescape : List Char → Option (Char × List Char)
  | [] => none
  | '\\' :: 'u' :: rest =>
    let unit := unitOf (rest.take 4)
    if 0xd800 ≤ unit ∧ unit < 0xdc00 then
      let low := unitOf ((rest.drop 6).take 4)
      some (Char.ofNat (0x10000 + (unit - 0xd800) * 0x400 + (low - 0xdc00)), rest.drop 10)
    else some (Char.ofNat unit, rest.drop 4)
  | '\\' :: letter :: rest => some (escapedBy letter, rest)
  | c :: rest => some (c, rest)

theorem unitOf_take {unit : ℕ} (small : unit < 0x10000) (rest : List Char) :
    unitOf ((Text.hexDigits 4 unit ++ rest).take 4) = unit := by
  rw [List.take_left' (length_hexDigits 4 unit), unitOf_hexDigits]
  exact Nat.mod_eq_of_lt small

theorem drop_hexDigits (unit : ℕ) (rest : List Char) :
    (Text.hexDigits 4 unit ++ rest).drop 4 = rest :=
  List.drop_left' (length_hexDigits 4 unit)

theorem unescape_unit {unit : ℕ} (small : unit < 0x10000) (single : unit < 0xd800 ∨ 0xdc00 ≤ unit)
    (rest : List Char) : unescape (escapeUnit unit ++ rest) = some (Char.ofNat unit, rest) := by
  have notPair : ¬(0xd800 ≤ unit ∧ unit < 0xdc00) := by omega
  rw [escapeUnit, List.cons_append, List.cons_append]
  simp only [unescape]
  rw [unitOf_take small, if_neg notPair, drop_hexDigits]

theorem unescape_pair {high low : ℕ} (surrogate : 0xd800 ≤ high ∧ high < 0xdc00)
    (small : low < 0x10000) (rest : List Char) :
    unescape (escapeUnit high ++ (escapeUnit low ++ rest)) =
      some (Char.ofNat (0x10000 + (high - 0xd800) * 0x400 + (low - 0xdc00)), rest) := by
  have six (cs : List Char) : cs.drop 6 = (cs.drop 4).drop 2 := by rw [List.drop_drop]
  have ten (cs : List Char) : cs.drop 10 = ((cs.drop 4).drop 2).drop 4 := by
    rw [List.drop_drop, List.drop_drop]
  rw [escapeUnit, List.cons_append, List.cons_append]
  simp only [unescape]
  rw [unitOf_take (by omega), if_pos surrogate, six, ten, drop_hexDigits]
  change some (Char.ofNat (_ + (unitOf ((Text.hexDigits 4 low ++ rest).take 4) - _)),
    (Text.hexDigits 4 low ++ rest).drop 4) = _
  rw [unitOf_take small, drop_hexDigits]

theorem unescape_escapeChar (c : Char) (rest : List Char) :
    unescape (escapeChar c ++ rest) = some (c, rest) := by
  unfold escapeChar
  by_cases quote : c = '\x22'
  · subst quote; rfl
  by_cases backslash : c = '\\'
  · subst backslash; rfl
  by_cases newline : c = '\n'
  · subst newline; rfl
  by_cases carriageReturn : c = '\r'
  · subst carriageReturn; rfl
  by_cases tab : c = '\t'
  · subst tab; rfl
  by_cases backspace : c = '\x08'
  · subst backspace; rfl
  by_cases formFeed : c = '\x0c'
  · subst formFeed; rfl
  simp only [beq_iff_eq, quote, backslash, newline, carriageReturn, tab, backspace, formFeed,
    if_false]
  have valid : c.toNat < 0xd800 ∨ 0xdfff < c.toNat ∧ c.toNat < 0x110000 := c.valid
  split_ifs with printable narrow
  · simp [unescape, backslash]
  · rw [unescape_unit narrow (by omega), Char.ofNat_toNat]
  · rw [List.append_assoc, unescape_pair (by omega) (by omega)]
    have joined : 0x10000 + (0xd800 + (c.toNat - 0x10000) / 0x400 - 0xd800) * 0x400 +
        (0xdc00 + (c.toNat - 0x10000) % 0x400 - 0xdc00) = c.toNat := by omega
    rw [joined, Char.ofNat_toNat]

theorem escapeChar_append_ne (c : Char) (rest tail : List Char) :
    escapeChar c ++ rest ≠ '\x22' :: tail := by
  intro same
  have read := congrArg unescape same
  rw [unescape_escapeChar] at read
  obtain ⟨rfl, rfl⟩ : c = '\x22' ∧ rest = tail := by simpa [unescape] using read
  cases same

theorem escaped_cancel {cs ds rest rest' : List Char}
    (same : cs.flatMap escapeChar ++ '\x22' :: rest = ds.flatMap escapeChar ++ '\x22' :: rest') :
    cs = ds ∧ rest = rest' := by
  induction cs generalizing ds with
  | nil =>
    cases ds with
    | nil =>
      cases same
      exact ⟨rfl, rfl⟩
    | cons d ds =>
      rw [List.flatMap_cons, List.append_assoc] at same
      exact absurd same.symm (escapeChar_append_ne d _ _)
  | cons c cs ih =>
    rw [List.flatMap_cons, List.append_assoc] at same
    cases ds with
    | nil => exact absurd same (escapeChar_append_ne c _ _)
    | cons d ds =>
      rw [List.flatMap_cons, List.append_assoc] at same
      have read := congrArg unescape same
      rw [unescape_escapeChar, unescape_escapeChar, Option.some.injEq, Prod.mk.injEq] at read
      obtain ⟨rfl, rfl⟩ := ih read.2
      exact ⟨congrArg (· :: cs) read.1, rfl⟩

theorem stringChars_cancel {s t : String} {rest rest' : List Char}
    (same : stringChars s ++ rest = stringChars t ++ rest') : s = t ∧ rest = rest' := by
  unfold stringChars at same
  rw [List.cons_append, List.cons_append, List.append_assoc, List.append_assoc] at same
  obtain ⟨characters, rest⟩ := escaped_cancel (List.tail_eq_of_cons_eq same)
  exact ⟨String.toList_inj.mp characters, rest⟩

end Escapes

section Tokens

variable {a b : Json} {cs : List Char}

def isTokenChar (c : Char) : Bool :=
  Text.isAsciiDigit c || c.isAlpha || c == '+' || c == '-' || c == '.'

def numberChars : Number → List Char
  | .int n => intChars n
  | .real x => x.documentChars

def words : List (List Char) :=
  [['n', 'u', 'l', 'l'], ['t', 'r', 'u', 'e'], ['f', 'a', 'l', 's', 'e']]

def token? : Json → Option (List Char)
  | .null => words[0]?
  | .bool true => words[1]?
  | .bool false => words[2]?
  | .int n => some (numberChars (.int n))
  | .real x => some (numberChars (.real x))
  | _ => none

theorem intChars_injective : Function.Injective intChars := by
  intro m n same
  have read := scan_intChars m
  rw [same, scan_intChars n] at read
  simp only [Option.some.injEq, Prod.mk.injEq, Literal.mk.injEq, decide_eq_decide, and_true] at read
  omega

theorem numberChars_injective : Function.Injective numberChars := by
  intro m n same
  cases m with
  | int m =>
    cases n with
    | int n => exact congrArg Number.int (intChars_injective same)
    | real y => exact absurd same.symm (y.documentChars_ne_intChars m)
  | real x =>
    cases n with
    | int n => exact absurd same (x.documentChars_ne_intChars n)
    | real y => exact congrArg Number.real (Double.documentChars_injective same)

theorem isTokenChar_numberChars (m : Number) : ∀ c ∈ numberChars m, isTokenChar c := by
  intro c inside
  cases m with
  | int n =>
    rcases mem_intChars inside with rfl | digit
    · decide
    · simp [isTokenChar, digit]
  | real x =>
    cases x with
    | nan => exact List.all_eq_true.mp (rfl : (numberChars (.real .nan)).all isTokenChar) c inside
    | infinite negative =>
      have letters : (numberChars (.real (.infinite negative))).all isTokenChar := by
        cases negative <;> rfl
      exact List.all_eq_true.mp letters c inside
    | finite negative exponent fraction =>
      obtain ⟨literal, scanned, -⟩ := Double.scan_documentChars negative exponent fraction
      rcases (written_of_scan scanned).mem inside with digit | other
      · simp [isTokenChar, digit]
      · exact List.all_eq_true.mp (rfl : ['+', '-', '.', 'e', 'E'].all isTokenChar) c other

theorem numberChars_not_word (m : Number) : numberChars m ∉ words := by
  intro word
  cases m with
  | int n =>
    have letters : words.all (·.any fun c ↦ !(c == '-' || Text.isAsciiDigit c)) := rfl
    obtain ⟨c, inside, letter⟩ := List.any_eq_true.mp (List.all_eq_true.mp letters _ word)
    rcases mem_intChars inside with rfl | digit
    · cases letter
    · simp [digit] at letter
  | real x =>
    cases x with
    | nan => exact absurd word (by decide)
    | infinite negative => cases negative <;> exact absurd word (by decide)
    | finite negative exponent fraction =>
      have unread : ∀ w ∈ words, Literal.scan w = none := by decide
      obtain ⟨literal, scanned, -⟩ := Double.scan_documentChars negative exponent fraction
      exact Option.some_ne_none _ (scanned.symm.trans (unread _ word))

theorem token?_of_number {m : Number} (number : a.number? = some m) :
    a.token? = some (numberChars m) := by
  cases a <;> cases number <;> rfl

theorem word_of_token? (noNumber : a.number? = none) (token : a.token? = some cs) : cs ∈ words := by
  cases a with
  | null => exact List.mem_of_getElem? token
  | bool value => cases value <;> exact List.mem_of_getElem? token
  | int n => cases noNumber
  | real x => cases noNumber
  | _ => cases token

theorem eq_of_word (ha : a.number? = none) (hb : b.number? = none) (token : a.token? = some cs)
    (token' : b.token? = some cs) : a = b := by
  cases a with
  | null =>
    cases token
    cases b with
    | null => rfl
    | bool value => cases value <;> cases token'
    | _ => first | cases token' | cases hb
  | bool value =>
    cases value <;> cases token <;> cases b with
      | bool value' => cases value' <;> first | rfl | cases token'
      | _ => first | cases token' | cases hb
  | int n => cases ha
  | real x => cases ha
  | _ => cases token

theorem token?_injective (token : a.token? = some cs) (token' : b.token? = some cs) : a = b := by
  cases ha : a.number? with
  | none =>
    cases hb : b.number? with
    | none => exact eq_of_word ha hb token token'
    | some n =>
      obtain rfl := Option.some.inj ((token?_of_number hb).symm.trans token')
      exact absurd (word_of_token? ha token) (numberChars_not_word n)
  | some m =>
    obtain rfl := Option.some.inj ((token?_of_number ha).symm.trans token)
    cases hb : b.number? with
    | none => exact absurd (word_of_token? hb token') (numberChars_not_word m)
    | some n =>
      obtain rfl := numberChars_injective
        (Option.some.inj ((token?_of_number hb).symm.trans token'))
      cases a <;> cases ha <;> cases b <;> cases hb <;> rfl

theorem isTokenChar_token? (token : a.token? = some cs) : ∀ c ∈ cs, isTokenChar c := by
  cases number : a.number? with
  | none =>
    have letters : words.all (·.all isTokenChar) := rfl
    exact List.all_eq_true.mp (List.all_eq_true.mp letters cs (word_of_token? number token))
  | some m =>
    obtain rfl := Option.some.inj ((token?_of_number number).symm.trans token)
    exact isTokenChar_numberChars m

theorem token?_ne_nil (token : a.token? = some cs) : cs ≠ [] := by
  cases number : a.number? with
  | none => exact (by decide : ∀ w ∈ words, w ≠ []) cs (word_of_token? number token)
  | some m =>
    obtain rfl := Option.some.inj ((token?_of_number number).symm.trans token)
    cases m with
    | int n => exact intChars_ne_nil n
    | real x =>
      obtain ⟨c, inside, -⟩ := x.mem_documentChars
      exact List.ne_nil_of_mem inside

end Tokens

section Pieces

variable {α : Type} {piece : α → List Char} {close : Char} {x y : α} {rest rest' : List Char}

def Stops (rest : List Char) : Prop := ∀ c ∈ rest.head?, isTokenChar c = false

/-- Whether the text of a piece determines the piece, and where it ends. -/
def Determines (piece : α → List Char) (x : α) : Prop :=
  ∀ y rest rest', Stops rest → Stops rest' → piece x ++ rest = piece y ++ rest' →
    x = y ∧ rest = rest'

def tailChars (piece : α → List Char) (close : Char) (xs : List α) (rest : List Char) : List Char :=
  xs.flatMap (fun x ↦ ',' :: ' ' :: piece x) ++ close :: rest

theorem tailChars_cons (piece : α → List Char) (close : Char) (x : α) (xs : List α)
    (rest : List Char) : tailChars piece close (x :: xs) rest =
      ',' :: ' ' :: (piece x ++ tailChars piece close xs rest) := by
  simp [tailChars]

theorem joinChars_cons (piece : α → List Char) (close : Char) (x : α) (xs : List α)
    (rest : List Char) : joinChars [',', ' '] ((x :: xs).map piece) ++ close :: rest =
      piece x ++ tailChars piece close xs rest := by
  induction xs generalizing x with
  | nil => rfl
  | cons y ys ih =>
    change piece x ++ [',', ' '] ++ joinChars [',', ' '] ((y :: ys).map piece) ++ close :: rest = _
    rw [List.append_assoc, ih, List.append_assoc, tailChars_cons]
    rfl

theorem stops_tailChars (stop : isTokenChar close = false) (xs : List α) (rest : List Char) :
    Stops (tailChars piece close xs rest) := by
  intro c hc
  cases xs with
  | nil =>
    cases hc
    exact stop
  | cons x xs =>
    cases hc
    decide

theorem tailChars_cancel (stop : isTokenChar close = false) (apart : close ≠ ',') {xs ys : List α}
    (determines : ∀ x ∈ xs, Determines piece x)
    (same : tailChars piece close xs rest = tailChars piece close ys rest') :
    xs = ys ∧ rest = rest' := by
  induction xs generalizing ys with
  | nil =>
    cases ys with
    | nil => exact ⟨rfl, List.tail_eq_of_cons_eq same⟩
    | cons y ys => exact absurd (List.head_eq_of_cons_eq same) apart
  | cons x xs ih =>
    cases ys with
    | nil => exact absurd (List.head_eq_of_cons_eq same).symm apart
    | cons y ys =>
      rw [tailChars_cons, tailChars_cons] at same
      obtain ⟨rfl, behind⟩ := determines x List.mem_cons_self y _ _ (stops_tailChars stop xs rest)
        (stops_tailChars stop ys rest') (List.tail_eq_of_cons_eq (List.tail_eq_of_cons_eq same))
      obtain ⟨rfl, rfl⟩ := ih (fun z hz ↦ determines z (List.mem_cons_of_mem x hz)) behind
      exact ⟨rfl, rfl⟩

theorem joinChars_cancel (stop : isTokenChar close = false) (apart : close ≠ ',')
    (opens : ∀ x tail tail', piece x ++ tail ≠ close :: tail') {xs ys : List α}
    (determines : ∀ x ∈ xs, Determines piece x)
    (same : joinChars [',', ' '] (xs.map piece) ++ close :: rest =
      joinChars [',', ' '] (ys.map piece) ++ close :: rest') :
    xs = ys ∧ rest = rest' := by
  cases xs with
  | nil =>
    cases ys with
    | nil => exact ⟨rfl, List.tail_eq_of_cons_eq same⟩
    | cons y ys =>
      rw [joinChars_cons] at same
      exact absurd same.symm (opens y _ _)
  | cons x xs =>
    rw [joinChars_cons] at same
    cases ys with
    | nil => exact absurd same (opens x _ _)
    | cons y ys =>
      rw [joinChars_cons] at same
      obtain ⟨rfl, behind⟩ := determines x List.mem_cons_self y _ _ (stops_tailChars stop xs rest)
        (stops_tailChars stop ys rest') same
      obtain ⟨rfl, rfl⟩ := tailChars_cancel stop apart
        (fun z hz ↦ determines z (List.mem_cons_of_mem x hz)) behind
      exact ⟨rfl, rfl⟩

end Pieces

section Values

variable {a b : Json} {cs : List Char}

theorem itemChars_eq (style : Style) (items : List Json) :
    itemChars style items = items.map (chars style) := by
  induction items with
  | nil => rfl
  | cons item rest ih => rw [itemChars, ih, List.map_cons]

theorem memberChars_eq (style : Style) (members : List (String × Json)) :
    memberChars style members = members.map fun m ↦ (m.1, chars style m.2) := by
  induction members with
  | nil => rfl
  | cons m rest ih => rw [memberChars, ih, List.map_cons]

theorem chars_of_token? (token : a.token? = some cs) : chars spacedStyle a = cs := by
  cases a with
  | bool value => cases value <;> cases token <;> rfl
  | _ => cases token <;> rfl

def memberPiece (m : String × Json) : List Char :=
  stringChars m.1 ++ [':', ' '] ++ chars spacedStyle m.2

theorem chars_arr (items : List Json) : chars spacedStyle (.arr items) =
    '[' :: (joinChars [',', ' '] (items.map (chars spacedStyle)) ++ [']']) := by
  rw [chars, itemChars_eq]
  rfl

theorem chars_obj (members : List (String × Json)) : chars spacedStyle (.obj members) =
    '\x7b' :: (joinChars [',', ' '] (members.map memberPiece) ++ ['\x7d']) := by
  have pieces : (members.map fun m ↦ (m.1, chars spacedStyle m.2)).map
      (fun m ↦ stringChars m.1 ++ spacedStyle.colon ++ m.2) =
      members.map memberPiece := by
    rw [List.map_map]
    rfl
  rw [chars, memberChars_eq]
  exact congrArg (fun pieces ↦ '\x7b' :: (joinChars [',', ' '] pieces ++ ['\x7d'])) pieces

def opening : Json → Char
  | .str _ => '\x22'
  | .arr _ => '['
  | _ => '\x7b'

theorem cases_of_no_token (noToken : a.token? = none) :
    (∃ s, a = .str s) ∨ (∃ items, a = .arr items) ∨ ∃ members, a = .obj members := by
  cases a with
  | str s => exact .inl ⟨s, rfl⟩
  | arr items => exact .inr (.inl ⟨items, rfl⟩)
  | obj members => exact .inr (.inr ⟨members, rfl⟩)
  | bool value => cases value <;> cases noToken
  | _ => cases noToken

theorem chars_of_no_token (noToken : a.token? = none) :
    ∃ tail, chars spacedStyle a = a.opening :: tail := by
  obtain ⟨s, rfl⟩ | ⟨items, rfl⟩ | ⟨members, rfl⟩ := cases_of_no_token noToken <;> exact ⟨_, rfl⟩

theorem opening_mem (a : Json) : a.opening ∈ ['\x22', '[', '\x7b'] := by cases a <;> simp [opening]

theorem opening_stops (a : Json) : isTokenChar a.opening = false := by cases a <;> rfl

theorem chars_append_ne (a : Json) {c : Char} (stop : isTokenChar c = false)
    (closing : c ∉ ['\x22', '[', '\x7b']) (tail tail' : List Char) :
    chars spacedStyle a ++ tail ≠ c :: tail' := by
  intro same
  cases token : a.token? with
  | none =>
    obtain ⟨rest, begins⟩ := chars_of_no_token token
    rw [begins] at same
    obtain rfl := List.head_eq_of_cons_eq same
    exact closing a.opening_mem
  | some cs =>
    obtain ⟨d, rest, rfl⟩ := List.exists_cons_of_ne_nil (token?_ne_nil token)
    rw [chars_of_token? token] at same
    obtain rfl := List.head_eq_of_cons_eq same
    have letter := isTokenChar_token? token d List.mem_cons_self
    rw [stop] at letter
    cases letter

theorem token_cancel {rest rest' : List Char} (stops : Stops rest) (stops' : Stops rest')
    (token : a.token? = some cs)
    (same : chars spacedStyle a ++ rest = chars spacedStyle b ++ rest') : a = b ∧ rest = rest' := by
  rw [chars_of_token? token] at same
  cases token' : b.token? with
  | none =>
    obtain ⟨d, tail, rfl⟩ := List.exists_cons_of_ne_nil (token?_ne_nil token)
    obtain ⟨tail', begins⟩ := chars_of_no_token token'
    rw [begins] at same
    obtain rfl := List.head_eq_of_cons_eq same
    exact absurd (isTokenChar_token? token _ List.mem_cons_self) (by simp [opening_stops b])
  | some ds =>
    rw [chars_of_token? token'] at same
    obtain ⟨taken, dropped⟩ := span_append (isTokenChar_token? token) stops
    obtain ⟨taken', dropped'⟩ := span_append (isTokenChar_token? token') stops'
    rw [same] at taken dropped
    obtain rfl : cs = ds := taken.symm.trans taken'
    exact ⟨token?_injective token token', dropped.symm.trans dropped'⟩

theorem determines_memberPiece {m : String × Json} (value : Determines (chars spacedStyle) m.2) :
    Determines memberPiece m := by
  intro n rest rest' stops stops' same
  simp only [memberPiece, List.append_assoc] at same
  obtain ⟨name, behind⟩ := stringChars_cancel same
  obtain ⟨value, rfl⟩ := value n.2 rest rest' stops stops'
    (List.tail_eq_of_cons_eq (List.tail_eq_of_cons_eq behind))
  exact ⟨Prod.ext name value, rfl⟩

theorem determines_of_opening (noToken : a.token? = none)
    (cancel : ∀ b rest rest', b.token? = none → a.opening = b.opening →
      chars spacedStyle a ++ rest = chars spacedStyle b ++ rest' → a = b ∧ rest = rest') :
    Determines (chars spacedStyle) a := by
  intro b rest rest' stops stops' same
  cases token : b.token? with
  | some cs =>
    obtain ⟨rfl, rfl⟩ := token_cancel stops' stops token same.symm
    exact ⟨rfl, rfl⟩
  | none =>
    obtain ⟨tail, begins⟩ := chars_of_no_token noToken
    obtain ⟨tail', begins'⟩ := chars_of_no_token token
    have heads : a.opening :: (tail ++ rest) = b.opening :: (tail' ++ rest') := by
      rw [← List.cons_append, ← List.cons_append, ← begins, ← begins', same]
    exact cancel b rest rest' token (List.head_eq_of_cons_eq heads) same

/-- The text of a value determines the value, and where it ends. -/
theorem determines_chars (a : Json) : Determines (chars spacedStyle) a := by
  induction a using nested with
  | null => exact fun b rest rest' stops stops' ↦ token_cancel stops stops' rfl
  | bool value =>
    cases value <;> exact fun b rest rest' stops stops' ↦ token_cancel stops stops' rfl
  | int n => exact fun b rest rest' stops stops' ↦ token_cancel stops stops' rfl
  | real x => exact fun b rest rest' stops stops' ↦ token_cancel stops stops' rfl
  | str s =>
    refine determines_of_opening rfl fun b rest rest' noToken first same ↦ ?_
    obtain ⟨t, rfl⟩ | ⟨others, rfl⟩ | ⟨others, rfl⟩ := cases_of_no_token noToken
    · obtain ⟨rfl, rfl⟩ := stringChars_cancel same
      exact ⟨rfl, rfl⟩
    all_goals simp [opening] at first
  | arr items ih =>
    refine determines_of_opening rfl fun b rest rest' noToken first same ↦ ?_
    obtain ⟨t, rfl⟩ | ⟨others, rfl⟩ | ⟨others, rfl⟩ := cases_of_no_token noToken
    case inr.inl =>
      rw [chars_arr, chars_arr, List.cons_append, List.cons_append, List.append_assoc,
        List.append_assoc] at same
      obtain ⟨rfl, rfl⟩ := joinChars_cancel (by decide) (by decide)
        (fun x ↦ x.chars_append_ne rfl (by decide)) ih (List.tail_eq_of_cons_eq same)
      exact ⟨rfl, rfl⟩
    all_goals simp [opening] at first
  | obj members ih =>
    refine determines_of_opening rfl fun b rest rest' noToken first same ↦ ?_
    obtain ⟨t, rfl⟩ | ⟨others, rfl⟩ | ⟨others, rfl⟩ := cases_of_no_token noToken
    case inr.inr =>
      have opens (m : String × Json) (tail tail' : List Char) :
          memberPiece m ++ tail ≠ '\x7d' :: tail' :=
        fun same ↦ absurd (List.head_eq_of_cons_eq same) (by decide)
      rw [chars_obj, chars_obj, List.cons_append, List.cons_append, List.append_assoc,
        List.append_assoc] at same
      obtain ⟨rfl, rfl⟩ := joinChars_cancel (by decide) (by decide) opens
        (fun m hm ↦ determines_memberPiece (ih m hm)) (List.tail_eq_of_cons_eq same)
      exact ⟨rfl, rfl⟩
    all_goals simp [opening] at first

theorem chars_injective : Function.Injective (chars spacedStyle) := by
  intro a b same
  have stops : Stops [] := by simp [Stops]
  refine (determines_chars a b [] [] stops stops ?_).1
  rw [same]

end Values

end CallSearch.Json
