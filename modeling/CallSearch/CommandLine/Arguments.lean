import CallSearch.Anomaly.Threshold
import CallSearch.Compile.Value

namespace CallSearch

namespace Whole

def ofText? (s : String) : Option Int :=
  let plain := Text.stripChars Text.isPlainBlank (s.toList.map Double.plainChar)
  (Double.withoutUnderscores? none plain).bind Compile.wholeNumber?

end Whole

namespace CommandLine

inductive Command where
  | compile (query : String) (scope : List String) (exact : Bool) (signals : List Signal)
      (count json : Bool)
  | fields (sampleSize : Option Int)
  | percentiles
  | views
  | health

structure Arguments where
  agent : String
  databaseUrl : Option String
  verbose : Bool
  command : Command

inductive Usage (α : Type) where
  | run (a : α)
  | help
  | wrong

structure OptionSpec where
  names : List String
  takesValue : Bool

structure Grammar where
  options : List OptionSpec
  places : Nat
  stopsAtPlain : Bool

def helpOption : OptionSpec := ⟨["-h", "--help"], false⟩

namespace Grammar

def find? (grammar : Grammar) (name : String) : Option OptionSpec :=
  (helpOption :: grammar.options).find? (·.names.contains name)

end Grammar

def isNegativeNumber : List Char → Bool
  | '-' :: cs =>
    let body := if cs.getLast? == some '\n' then cs.dropLast else cs
    match Text.cutFirst '.' body with
    | (whole, none) => !whole.isEmpty && whole.all Text.isDigit
    | (whole, some fraction) =>
      whole.all Text.isDigit && !fraction.isEmpty && fraction.all Text.isDigit
  | _ => false

/-- What an argument is: plain, the hyphens after which all arguments are plain, an option that is
known, with a value behind `=` if there is one, several options of one letter, with something that
is not known behind them or without, letters that cannot be read, or an option that is not known. -/
inductive Kind where
  | plain
  | hyphens
  | known (option : OptionSpec) (value : Option String)
  | letters (options : List OptionSpec) (strange : Bool)
  | malformed
  | unknown

def letter? (grammar : Grammar) (c : Char) : Option OptionSpec :=
  grammar.find? (String.ofList ['-', c])

/-- The options that letters stand for, and whether there is something behind them that is not
known. None of them takes a value, and none stands before a hyphen. -/
def lettersOf? (grammar : Grammar) : List Char → Option (List OptionSpec × Bool)
  | [] => some ([], false)
  | c :: rest =>
    match letter? grammar c with
    | none => some ([], true)
    | some option =>
      if rest.head?.any fun next => next == '=' || next == '-' then none
      else (lettersOf? grammar rest).map fun (options, strange) => (option :: options, strange)

def kindOfOther (grammar : Grammar) (argument : String) : Kind :=
  let rest := argument.toList.drop 1
  let (name, value) := Text.cut '=' argument
  match value, grammar.find? name with
  | some value, some option => .known option (some value)
  | _, _ =>
    if (rest.head?.bind (letter? grammar)).isSome then
      (lettersOf? grammar rest).elim .malformed fun (options, strange) => .letters options strange
    else if isNegativeNumber argument.toList || argument.toList.contains ' ' then .plain
    else .unknown

def kindOf (grammar : Grammar) (argument : String) : Kind :=
  match argument.toList with
  | ['-'] => .plain
  | ['-', '-'] => .hyphens
  | '-' :: _ =>
    match grammar.find? argument with
    | some option => .known option none
    | none => kindOfOther grammar argument
  | _ => .plain

/-- What was read: the values of options in order, the plain arguments, whether the last argument
was one of these, whether something was not known, and the arguments that were not read. -/
structure Parsed where
  given : List (OptionSpec × String) := []
  plain : List String := []
  atPlain : Bool := false
  strange : Bool := false
  rest : List String := []

namespace Parsed

def valuesOf (parsed : Parsed) (name : String) : List String :=
  (parsed.given.filter (·.1.names.contains name)).map Prod.snd

def value? (parsed : Parsed) (name : String) : Option String := (parsed.valuesOf name).getLast?

def has (parsed : Parsed) (name : String) : Bool := !(parsed.valuesOf name).isEmpty

def give (parsed : Parsed) (option : OptionSpec) (value : String) : Parsed :=
  { parsed with given := parsed.given ++ [(option, value)], atPlain := false }

def addStrange (parsed : Parsed) : Parsed := { parsed with atPlain := false, strange := true }

def takePlain (parsed : Parsed) (places : Nat) (argument : String) : Parsed :=
  if parsed.plain.length < places then
    { parsed with plain := parsed.plain ++ [argument], atPlain := true }
  else parsed.addStrange

/-- What was read, with the hyphens after which all arguments are plain. They have to stand next to
a plain argument. -/
def takeHyphens (parsed : Parsed) (places : Nat) : Parsed :=
  if parsed.atPlain || parsed.plain.length < places then parsed else parsed.addStrange

def giveAll (parsed : Parsed) (options : List OptionSpec) (strange : Bool) : Parsed :=
  options.foldl (·.give · "") (if strange then parsed.addStrange else parsed)

end Parsed

/-- Reads arguments from left to right. `accepts` says whether an option may have a value, and
`onlyPlain` whether there were hyphens after which all arguments are plain. -/
def readArguments (grammar : Grammar) (accepts : OptionSpec → String → Bool) (onlyPlain : Bool)
    (parsed : Parsed) (arguments : List String) : Usage Parsed :=
  match arguments with
  | [] => .run parsed
  | argument :: rest =>
    match if onlyPlain then .plain else kindOf grammar argument with
    | .plain =>
      if grammar.stopsAtPlain then .run { parsed with rest := argument :: rest }
      else
        readArguments grammar accepts onlyPlain (parsed.takePlain grammar.places argument) rest
    | .hyphens =>
      if grammar.stopsAtPlain then .run { parsed with rest := argument :: rest }
      else readArguments grammar accepts true (parsed.takeHyphens grammar.places) rest
    | .malformed => .wrong
    | .unknown => readArguments grammar accepts onlyPlain parsed.addStrange rest
    | .letters options strange =>
      if options.any (·.names == helpOption.names) then .help
      else readArguments grammar accepts onlyPlain (parsed.giveAll options strange) rest
    | .known option (some value) =>
      if option.takesValue && accepts option value then
        readArguments grammar accepts onlyPlain (parsed.give option value) rest
      else .wrong
    | .known option none =>
      if option.names == helpOption.names then .help
      else if !option.takesValue then
        readArguments grammar accepts onlyPlain (parsed.give option "") rest
      else
        match rest with
        | value :: rest =>
          if kindOf grammar value matches .plain && accepts option value then
            readArguments grammar accepts onlyPlain (parsed.give option value) rest
          else .wrong
        | [] => .wrong
termination_by arguments.length

def programGrammar : Grammar where
  options := [⟨["--agent"], true⟩, ⟨["--database-url"], true⟩, ⟨["--verbose", "-v"], false⟩]
  places := 0
  stopsAtPlain := true

def scopeOf (value : String) : List String :=
  let fields := (Text.split ',' value).map Text.strip |>.filter (!·.isEmpty)
  if fields.isEmpty then ["all"] else fields

def grammarOf? : String → Option Grammar
  | "compile" => some ⟨[⟨["--fields"], true⟩, ⟨["--exact"], false⟩, ⟨["--anomaly"], true⟩,
      ⟨["--count"], false⟩, ⟨["--json"], false⟩], 1, false⟩
  | "fields" => some ⟨[⟨["--sample-size"], true⟩], 0, false⟩
  | "percentiles" | "views" | "health" => some ⟨[], 0, false⟩
  | _ => none

def acceptsValue (option : OptionSpec) (value : String) : Bool :=
  if option.names == ["--anomaly"] then (Signal.ofName? value).isSome
  else if option.names == ["--sample-size"] then (Whole.ofText? value).isSome
  else true

def commandOf? (name : String) (parsed : Parsed) : Option Command :=
  match name with
  | "compile" =>
    parsed.plain.head?.map fun query =>
      .compile query (scopeOf ((parsed.value? "--fields").getD "all")) (parsed.has "--exact")
        ((parsed.valuesOf "--anomaly").filterMap Signal.ofName?) (parsed.has "--count")
        (parsed.has "--json")
  | "fields" => some (.fields ((parsed.value? "--sample-size").bind Whole.ofText?))
  | "percentiles" => some .percentiles
  | "views" => some .views
  | "health" => some .health
  | _ => none

def readCommand (program : Parsed) : Usage Arguments :=
  match program.rest with
  | [] => .wrong
  | name :: arguments =>
    match grammarOf? name with
    | none => .wrong
    | some grammar =>
      match readArguments grammar acceptsValue false {} arguments with
      | .wrong => .wrong
      | .help => .help
      | .run parsed =>
        match commandOf? name parsed, program.value? "--agent" with
        | some command, some agent =>
          if parsed.strange || program.strange then .wrong
          else .run ⟨agent, program.value? "--database-url", program.has "--verbose", command⟩
        | _, _ => .wrong

def Arguments.parse (arguments : List String) : Usage Arguments :=
  match readArguments programGrammar acceptsValue false {} arguments with
  | .wrong => .wrong
  | .help => .help
  | .run program => readCommand program

end CommandLine

end CallSearch
