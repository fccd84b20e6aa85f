import SliceRecords.Text.Blank
import SliceRecords.Text.Digit
import SliceRecords.Text.Quoted
import SliceRecords.Text.Trim

/-!
# Options of the command line

The options that arguments and environment variables give. A long option may be shortened as long as
it stays unambiguous, short options may be put together, and a value may follow in the same
argument. Variables override arguments.

Releases of the library that reads the arguments differ in three details of a single argument. Here
they are those of the releases in which an equals sign behind a group of letters belongs to the
value (`-vi=m.json` names the file `=m.json`), two dashes attached to an option are no value
(`--input=--` gives none), and text behind a flag that is not the letter of an option is an ignored
value of that flag (`-vx`), not an unknown argument.
-/

namespace SliceRecords.Command

/-- The options of the command line. -/
inductive Switch where
  | help
  | input
  | output
  | outputName
  | dumpModel
  | verbose
  deriving DecidableEq, Repr

namespace Switch

/-- All options, in the order in which messages list them. -/
def all : List Switch := [help, input, output, outputName, dumpModel, verbose]

/-- The spellings of an option. -/
def spellings : Switch → List String
  | help => ["-h", "--help"]
  | input => ["--input", "-i"]
  | output => ["--output", "-o"]
  | outputName => ["--output-name", "-n"]
  | dumpModel => ["--dump-model"]
  | verbose => ["--verbose", "-v"]

/-- Whether an option takes a value. -/
def takesValue : Switch → Bool
  | input | output | outputName => true
  | help | dumpModel | verbose => false

/-- All spellings with their options. -/
def spelled : List (String × Switch) :=
  all.flatMap fun option => option.spellings.map fun spelling => (spelling, option)

/-- The option with a spelling. -/
def ofSpelling? (spelling : String) : Option Switch :=
  (spelled.find? fun entry => entry.1 = spelling).map Prod.snd

/-- An option as messages show it. -/
def display (option : Switch) : String :=
  "/".intercalate option.spellings

end Switch

/-- What the options say. -/
structure Settings where
  input : Option String := none
  output : Option String := none
  outputName : Option String := none
  dumpModel : Bool := false
  verbose : Bool := false
  deriving DecidableEq, Repr

/-- How a command line can be wrong. -/
inductive Misuse where
  | ambiguous (argument : String) (candidates : List String)
  | missingValue (option : Switch)
  | ignoredValue (option : Switch) (value : String)
  | unrecognized (arguments : List String)
  | missingInput
  | missingOutput
  deriving DecidableEq, Repr

/-- The wording of a wrong command line. -/
def Misuse.message : Misuse → String
  | ambiguous argument candidates =>
    let listed := ", ".intercalate candidates
    s!"ambiguous option: {argument} could match {listed}"
  | missingValue option => s!"argument {option.display}: expected one argument"
  | ignoredValue option value =>
    s!"argument {option.display}: ignored explicit argument {Text.quoted value}"
  | unrecognized arguments =>
    let listed := " ".intercalate arguments
    s!"unrecognized arguments: {listed}"
  | missingInput => "the following arguments are required: --input/-i (or SW_INPUT_FILE)"
  | missingOutput => "the following arguments are required: --output/-o (or SW_OUTPUT_DIR)"

/-- Why a command line does not lead to a run. -/
inductive Stop where
  | help
  | misuse (cause : Misuse)
  deriving DecidableEq, Repr

/-- An option in an argument: whether it is spelled with one dash, and the text that follows it
in the same argument. -/
structure Occurrence where
  option : Switch
  isShort : Bool
  attached : Option String := none
  deriving DecidableEq, Repr

/-- What an argument is. -/
inductive Word where
  | plain (text : String)
  | option (occurrence : Occurrence)
  | unknown (text : String)
  deriving DecidableEq, Repr

/-- A text before and after its first equals sign. -/
def splitEquals (text : String) : String × Option String :=
  let before := text.toList.takeWhile (· ≠ '=')
  match text.toList.dropWhile (· ≠ '=') with
  | [] => (text, none)
  | _ :: after => (String.ofList before, some (String.ofList after))

/-- A spelling with one dash. -/
def isShortSpelling (spelling : String) : Bool :=
  spelling.toList[1]? != some '-'

/-- An option whose spelling and value are known. -/
def Occurrence.ofParts (option : Switch) (spelling : String) (value : Option String) : Occurrence :=
  ⟨option, isShortSpelling spelling, value⟩

/-- A number with a minus sign, which may be a value. -/
def isNegativeNumber (text : String) : Bool :=
  let digits := if text.toList.getLast? = some '\n' then text.toList.dropLast else text.toList
  match digits with
  | '-' :: rest =>
    let fraction := rest.dropWhile Text.isDecimalDigit
    match fraction with
    | [] => !rest.isEmpty
    | '.' :: decimals => !decimals.isEmpty && decimals.all Text.isDecimalDigit
    | _ => false
  | _ => false

/-- The options that an argument may be short for. -/
def candidates (argument : String) : List (String × Occurrence) :=
  if argument.startsWith "--" then
    let (start, value) := splitEquals argument
    (Switch.spelled.filter fun entry => entry.1.startsWith start).map fun entry =>
      (entry.1, ⟨entry.2, false, value⟩)
  else
    let start := String.ofList (argument.toList.take 2)
    let value := String.ofList (argument.toList.drop 2)
    (Switch.spelled.filter fun entry => entry.1 = start).map fun entry =>
      (entry.1, ⟨entry.2, true, some value⟩)

/-- What an argument that starts with a dash is. -/
def classifyDashed (argument : String) : Except Stop Word :=
  match Switch.ofSpelling? argument with
  | some option => .ok (.option (.ofParts option argument none))
  | none =>
    if argument = "-" then .ok (.plain argument)
    else
      let (spelling, value) := splitEquals argument
      match value, Switch.ofSpelling? spelling with
      | some value, some option => .ok (.option (.ofParts option spelling (some value)))
      | _, _ =>
        match candidates argument with
        | [] =>
          if isNegativeNumber argument || ' ' ∈ argument.toList then .ok (.plain argument)
          else .ok (.unknown argument)
        | [(_, occurrence)] => .ok (.option occurrence)
        | several => .error (.misuse (.ambiguous argument (several.map Prod.fst)))

/-- What the arguments are. Two dashes make plain arguments of all that follow, and are no value. -/
def classify : List String → Except Stop (List Word)
  | [] => .ok []
  | argument :: rest =>
    if argument = "--" then .ok (.unknown argument :: rest.map Word.plain)
    else do
      let word ← if argument.startsWith "-" then classifyDashed argument else .ok (.plain argument)
      return word :: (← classify rest)

/-- An option with its value, if it takes one and has one. -/
abbrev Setting := Switch × Option String

/-- The settings in one argument, and the option that still needs a value. -/
structure Reading where
  settings : List Setting
  needsValue : Option Switch := none
  deriving Repr

/-- The value that a text in the argument of an option gives. Two dashes give none. -/
def attachedValue (text : String) : Option String :=
  if text = "--" then none else some text

/-- Reads the options that are put together in one argument. `attached` is the text after the
option. Text after an option that takes no value has to be the letters of further options, up to one
that takes the rest as its value. -/
def readAttached (option : Switch) (isShort : Bool) (attached : List Char) : Except Stop Reading :=
  if option.takesValue then .ok ⟨[(option, attachedValue (String.ofList attached))], none⟩
  else
    let ignored : Except Stop Reading :=
      .error (.misuse (.ignoredValue option (String.ofList attached)))
    match attached with
    | [] => ignored
    | letter :: rest =>
      if !isShort then ignored
      else
        match Switch.ofSpelling? (String.ofList ['-', letter]) with
        | none => ignored
        | some next =>
          let here : Setting := (option, none)
          match rest with
          | [] =>
            if next.takesValue then .ok ⟨[here], some next⟩ else .ok ⟨[here, (next, none)], none⟩
          | rest => do
            let reading ← readAttached next true rest
            return { reading with settings := here :: reading.settings }

/-- Reads an option in an argument. -/
def readOccurrence (occurrence : Occurrence) : Except Stop Reading :=
  match occurrence.attached with
  | some attached => readAttached occurrence.option occurrence.isShort attached.toList
  | none =>
    if occurrence.option.takesValue then .ok ⟨[], some occurrence.option⟩
    else .ok ⟨[(occurrence.option, none)], none⟩

/-- Settings after one more option. -/
def Settings.apply (settings : Settings) : Setting → Except Stop Settings
  | (.help, _) => .error .help
  | (.input, value) => .ok { settings with input := value }
  | (.output, value) => .ok { settings with output := value }
  | (.outputName, value) => .ok { settings with outputName := value }
  | (.dumpModel, _) => .ok { settings with dumpModel := true }
  | (.verbose, _) => .ok { settings with verbose := true }

/-- Reads the arguments one after the other; the second result holds what is not understood. -/
def readWords (settings : Settings) : List Word → Except Stop (Settings × List String)
  | [] => .ok (settings, [])
  | .plain text :: rest | .unknown text :: rest => do
    let (settings, extras) ← readWords settings rest
    return (settings, text :: extras)
  | .option occurrence :: rest => do
    let reading ← readOccurrence occurrence
    match reading.needsValue, rest with
    | some option, .plain value :: rest =>
      let settings ← (reading.settings ++ [(option, some value)]).foldlM Settings.apply settings
      readWords settings rest
    | some option, _ => throw (.misuse (.missingValue option))
    | none, rest =>
      let settings ← reading.settings.foldlM Settings.apply settings
      readWords settings rest

/-- The settings that arguments give. -/
def readArguments (arguments : List String) : Except Stop Settings := do
  let (settings, extras) ← readWords {} (← classify arguments)
  if extras.isEmpty then return settings else throw (.misuse (.unrecognized extras))

/-- Environment variables with their values. -/
abbrev Environment := List (String × String)

/-- The value of a variable. -/
def Environment.get? (environment : Environment) (name : String) : Option String :=
  (environment.find? fun entry => entry.1 = name).map Prod.snd

/-- The values of a variable that switch something on. -/
def truthyWords : List String := ["1", "true", "yes", "on"]

/-- Whether the value of a variable switches something on, whatever its case and the blanks around
it. The words are of seven bits, and no other letter has one of theirs as its small form. -/
def isTruthy (value : String) : Bool :=
  (Text.trim Text.isBlank value).map Char.toLower ∈ truthyWords

/-- Settings with the variables in place of the options that they override. -/
def Settings.override (settings : Settings) (environment : Environment) : Settings :=
  { settings with
    input := (environment.get? "SW_INPUT_FILE").or settings.input
    output := (environment.get? "SW_OUTPUT_DIR").or settings.output
    outputName := (environment.get? "SW_OUTPUT_NAME").or settings.outputName
    verbose := ((environment.get? "SW_VERBOSE").map isTruthy).getD settings.verbose }

/-- What a run needs to know. -/
structure Request where
  input : String
  output : String
  outputName : Option String
  dumpModel : Bool
  verbose : Bool
  deriving DecidableEq, Repr

/-- The run that arguments and variables ask for. An empty path is no path. -/
def Request.parse (arguments : List String) (environment : Environment) : Except Stop Request := do
  let settings := (← readArguments arguments).override environment
  match settings.input.filter (!·.isEmpty), settings.output.filter (!·.isEmpty) with
  | none, _ => throw (.misuse .missingInput)
  | _, none => throw (.misuse .missingOutput)
  | some input, some output =>
    return ⟨input, output, settings.outputName, settings.dumpModel, settings.verbose⟩

end SliceRecords.Command
