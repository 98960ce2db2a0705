namespace CallSearch.Pattern

def sameLetter (a b : Char) : Bool := a.toLower == b.toLower

def anyTail (test : List Char → Bool) : List Char → Bool
  | [] => test []
  | c :: rest => test (c :: rest) || anyTail test rest

def matchChars : List Char → List Char → Bool
  | [], text => text.isEmpty
  | p :: pattern, text =>
    if p == '%' then anyTail (matchChars pattern) text
    else
      match text with
      | [] => false
      | c :: rest => (p == '_' || sameLetter p c) && matchChars pattern rest

def onTails (test : List Char → Bool) : List Char → List Bool
  | [] => [test []]
  | c :: rest => test (c :: rest) :: onTails test rest

def yesFrom : List Bool → List Bool
  | [] => []
  | answer :: rest =>
    let later := yesFrom rest
    (answer || later.headD false) :: later

/-- The answers of one pattern character before others, for all ends of a text, from the answers of
the others. -/
def stepOne (p : Char) : List Char → List Bool → List Bool
  | c :: text, _ :: answers =>
    ((p == '_' || sameLetter p c) && answers.headD false) :: stepOne p text answers
  | _, _ => [false]

def tailAnswers : List Char → List Char → List Bool
  | [], text => onTails List.isEmpty text
  | p :: pattern, text =>
    let answers := tailAnswers pattern text
    if p == '%' then yesFrom answers else stepOne p text answers

def sizeLimit : Nat := 50000

def replaced (c : Char) : Char := if c.val == 0xFFFE || c.val == 0xFFFF then '\uFFFD' else c

/-- What is read of a text: it ends at the first NUL, and the two code points that are never
characters are replaced. -/
def readable (text : String) : List Char := (text.toList.takeWhile (· != '\x00')).map replaced

def fits (pattern text : String) : Bool :=
  (tailAnswers (readable pattern) (readable text)).headD false

theorem head_onTails (test : List Char → Bool) (text : List Char) :
    (onTails test text).head?.getD false = test text := by
  cases text <;> rfl

theorem yesFrom_onTails (test : List Char → Bool) (text : List Char) :
    yesFrom (onTails test text) = onTails (anyTail test) text := by
  induction text with
  | nil => simp [onTails, yesFrom, anyTail]
  | cons c rest ih => simp [onTails, yesFrom, ih, head_onTails, anyTail]

theorem stepOne_onTails (p : Char) (pattern text : List Char) (h : (p == '%') = false) :
    stepOne p text (onTails (matchChars pattern) text)
      = onTails (matchChars (p :: pattern)) text := by
  induction text with
  | nil => simp [onTails, stepOne, matchChars, h]
  | cons c rest ih => simp [onTails, stepOne, ih, head_onTails, matchChars, h]

theorem tailAnswers_eq (pattern text : List Char) :
    tailAnswers pattern text = onTails (matchChars pattern) text := by
  induction pattern with
  | nil =>
    have h : matchChars [] = List.isEmpty := by funext text; simp [matchChars]
    rw [tailAnswers, h]
  | cons p pattern ih =>
    cases h : p == '%'
    · simp [tailAnswers, ih, h, stepOne_onTails]
    · have hm : matchChars (p :: pattern) = anyTail (matchChars pattern) := by
        funext text; simp [matchChars, h]
      simp [tailAnswers, ih, h, yesFrom_onTails, hm]

theorem fits_eq (pattern text : String) :
    fits pattern text = matchChars (readable pattern) (readable text) := by
  rw [fits, tailAnswers_eq, List.headD_eq_head?_getD, head_onTails]

end CallSearch.Pattern
