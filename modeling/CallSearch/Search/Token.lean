import CallSearch.Text.Blank

namespace CallSearch.Search

def isQuote (c : Char) : Bool := c == '\x22' || c == '\x27'

def consToken (piece : List Char) (tokens : List (List Char)) : List (List Char) :=
  if piece.isEmpty then tokens else piece :: tokens

/-- The rest of the token that the text stands in, and the tokens after it. Inside a quoted section
`quote?` is the quote that closes it. -/
def tokensFrom (quote? : Option Char) : List Char → List Char × List (List Char)
  | [] => ([], [])
  | c :: rest =>
    match quote? with
    | some quote =>
      let (piece, tokens) := tokensFrom (if c == quote then none else some quote) rest
      (c :: piece, tokens)
    | none =>
      if Text.isBlank c then
        let (piece, tokens) := tokensFrom none rest
        ([], consToken piece tokens)
      else
        let opened := if isQuote c && rest.contains c then some c else none
        let (piece, tokens) := tokensFrom opened rest
        (c :: piece, tokens)

def tokens (cs : List Char) : List (List Char) :=
  consToken (tokensFrom none cs).1 (tokensFrom none cs).2

def tokenize (s : String) : List String := (tokens s.toList).map String.ofList

def isQuoted (cs : List Char) : Bool :=
  2 ≤ cs.length && cs.head?.any isQuote && cs.head? == cs.getLast?

def unquote (cs : List Char) : List Char :=
  let stripped := Text.stripChars Text.isBlank cs
  if isQuoted stripped then (stripped.drop 1).dropLast else stripped

end CallSearch.Search
