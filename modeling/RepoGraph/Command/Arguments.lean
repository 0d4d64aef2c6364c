import RepoGraph.Text.Lower
import RepoGraph.Settings.Basic
/-!
# Arguments

The words of a command line are read from left to right. Each level of the command has its options,
and either a choice of further levels or at most one operand. Options of the first level may be
given at every level.
-/
namespace RepoGraph
open Text

def readDigits? (s : List Char) : Option Nat :=
  if s.isEmpty || !s.all Char.isDigit then none else some (Nat.ofDigitChars 10 s 0)

def readWord64? (text : String) : Option UInt64 :=
  let digits := match text.toList with
    | '+' :: s => s
    | s => s
  ((readDigits? digits).filter (· < UInt64.size)).map UInt64.ofNat

/-- The natural number of 32 bits that a text writes, perhaps with a sign; zero may have a minus
sign. -/
def readWord32? (text : String) : Option UInt32 :=
  match text.toList with
  | '-' :: s => if readDigits? s = some 0 then some 0 else none
  | '+' :: s => ((readDigits? s).filter (· < UInt32.size)).map UInt32.ofNat
  | s => ((readDigits? s).filter (· < UInt32.size)).map UInt32.ofNat

def readLogFormat? (text : String) : Option LogFormat :=
  LogFormat.ofName? (String.ofList (lower text.toList))

inductive OptionKind where
  | flag | text | path | word64 | word32 | logFormat
  deriving DecidableEq, Repr

def OptionKind.accepts : OptionKind → String → Bool
  | flag, _ => false
  | text, _ => true
  | path, value => !value.isEmpty
  | word64, value => (readWord64? value).isSome
  | word32, value => (readWord32? value).isSome
  | logFormat, value => (readLogFormat? value).isSome

structure OptionForm where
  long : String
  short : Option Char := none
  kind : OptionKind := .flag
  repeats : Bool := false
  variableName : Option String := none
  deriving DecidableEq, Repr

inductive CommandLevel where
  | top | graph | stats | settings | settingsList | settingsGet | settingsInit | settingsPath
  deriving DecidableEq, Repr

namespace CommandLevel

def commonOptions : List OptionForm :=
  [{ long := "config", short := some 'c', kind := .path, variableName := some "ARCHGRAPH_CONFIG" },
    { long := "verbose", short := some 'v' }, { long := "quiet", short := some 'q' },
    { long := "log-format", kind := .logFormat, variableName := some "ARCHGRAPH_LOG_FORMAT" },
    { long := "help", short := some 'h' }, { long := "version", short := some 'V' }]

def analysisOptions : List OptionForm :=
  [{ long := "max-files", kind := .word64 }, { long := "max-files-per-dir", kind := .word64 },
    { long := "node-cap", kind := .word64 }, { long := "min-weight", kind := .word32 },
    { long := "max-edges", kind := .word64 },
    { long := "language", short := some 'l', kind := .text },
    { long := "exclude", short := some 'e', kind := .text, repeats := true }]

def rootOption : OptionForm := { long := "root", kind := .path }

def ownOptions : CommandLevel → List OptionForm
  | top | settings => []
  | graph => analysisOptions ++
    [{ long := "pretty" }, { long := "output", short := some 'o', kind := .path },
      { long := "fingerprint" }]
  | stats => analysisOptions ++ [{ long := "top", kind := .word64 }, { long := "json" }]
  | settingsList | settingsGet | settingsPath => [rootOption, { long := "json" }]
  | settingsInit => [{ long := "global" }, rootOption]

def options (level : CommandLevel) : List OptionForm := commonOptions ++ level.ownOptions

def below : CommandLevel → List (String × CommandLevel)
  | top => [("graph", graph), ("stats", stats), ("config", settings)]
  | settings => [("list", settingsList), ("get", settingsGet), ("init", settingsInit),
    ("path", settingsPath)]
  | _ => []

def needsOperand : CommandLevel → Bool
  | graph | stats | settingsGet => true
  | _ => false

def title : CommandLevel → String
  | top => "archgraph"
  | graph => "archgraph-graph"
  | stats => "archgraph-stats"
  | settings => "archgraph-config"
  | settingsList => "archgraph-config-list"
  | settingsGet => "archgraph-config-get"
  | settingsInit => "archgraph-config-init"
  | settingsPath => "archgraph-config-path"

end CommandLevel

inductive ArgumentStop where
  | usage
  | help (level : CommandLevel)
  | version (level : CommandLevel)
  deriving DecidableEq, Repr

structure LevelArguments where
  level : CommandLevel
  /-- The options with their values in order; flags have an empty value. -/
  options : List (OptionForm × String) := []
  operand : Option String := none
  deriving DecidableEq, Repr

namespace LevelArguments

def values (given : LevelArguments) (long : String) : List String :=
  (given.options.filter (·.1.long = long)).map (·.2)

def has (given : LevelArguments) (long : String) : Bool := !(given.values long).isEmpty

def add (given : LevelArguments) (form : OptionForm) (value : String) :
    Except ArgumentStop LevelArguments :=
  if form.long = "help" then .error (.help given.level)
  else if form.long = "version" then .error (.version given.level)
  else if given.has form.long && !form.repeats then .error .usage
  else if form.kind ≠ .flag && !form.kind.accepts value then .error .usage
  else .ok { given with options := given.options ++ [(form, value)] }

def addOperand (given : LevelArguments) (word : String) : Except ArgumentStop LevelArguments :=
  if given.level.needsOperand && given.operand.isNone then .ok { given with operand := some word }
  else .error .usage

def isComplete (given : LevelArguments) : Bool :=
  given.level.below.isEmpty && (given.operand.isSome || !given.level.needsOperand)

end LevelArguments

structure WordReading where
  given : LevelArguments
  waiting : Option OptionForm := none

/-- Reads the letters after a single dash. The rest of the letters after an option with a value are
the value, perhaps after an equals sign. -/
def readLetters (given : LevelArguments) : List Char → Except ArgumentStop WordReading
  | [] => .ok { given }
  | c :: rest =>
    match given.level.options.find? (·.short = some c) with
    | none => .error .usage
    | some form =>
      if form.kind = .flag then
        match given.add form "" with
        | .ok given => readLetters given rest
        | .error stop => .error stop
      else match rest with
        | [] => .ok { given, waiting := some form }
        | '=' :: value => (given.add form (String.ofList value)).map ({ given := · })
        | value => (given.add form (String.ofList value)).map ({ given := · })

/-- Reads what follows two dashes: the name of an option, perhaps with an equals sign and a
value. -/
def readLong (given : LevelArguments) (s : List Char) : Except ArgumentStop WordReading :=
  let find (name : List Char) := given.level.options.find? (·.long = String.ofList name)
  match cut? ['='] s with
  | some (name, value) =>
    match find name with
    | some form =>
      if form.kind = .flag then .error .usage
      else (given.add form (String.ofList value)).map ({ given := · })
    | none => .error .usage
  | none =>
    match find s with
    | some form =>
      if form.kind = .flag then (given.add form "").map ({ given := · })
      else .ok { given, waiting := some form }
    | none => .error .usage

inductive WordShape where
  /-- Two dashes: all further words are operands. -/
  | separator
  | long (s : List Char)
  | letters (s : List Char)
  | plain

/-- How a word is taken; a single dash is a plain word. -/
def WordShape.of (word : String) : WordShape :=
  match word.toList with
  | ['-', '-'] => separator
  | '-' :: '-' :: s => long s
  | '-' :: c :: s => letters (c :: s)
  | _ => plain

inductive WordMode where
  | optionsAndOperands | operandsOnly
  | helpTopic
  deriving DecidableEq, Repr

structure CommandReading where
  /-- What is given at the levels around the deepest one, innermost first. -/
  outer : List LevelArguments := []
  given : LevelArguments := { level := .top }
  waiting : Option OptionForm := none
  mode : WordMode := .optionsAndOperands

namespace CommandReading

def resume (reading : CommandReading) (word : WordReading) : CommandReading :=
  { reading with given := word.given, waiting := word.waiting }

def enter (reading : CommandReading) (level : CommandLevel) : CommandReading :=
  { reading with outer := reading.given :: reading.outer, given := { level } }

def readPlain (reading : CommandReading) (word : String) : Except ArgumentStop CommandReading :=
  match reading.mode, reading.given.level.below with
  | .optionsAndOperands, below@(_ :: _) =>
    match below.lookup word with
    | some level => .ok (reading.enter level)
    | none => if word = "help" then .ok { reading with mode := .helpTopic } else .error .usage
  | .helpTopic, below =>
    match below.lookup word with
    | some level => .ok (reading.enter level)
    | none => if word = "help" && !below.isEmpty then .ok reading else .error .usage
  | _, _ => (reading.given.addOperand word).map fun given => { reading with given }

def next (reading : CommandReading) (word : String) : Except ArgumentStop CommandReading :=
  match reading.mode, reading.waiting, WordShape.of word with
  | .optionsAndOperands, some form, .plain =>
    (reading.given.add form word).map fun given => { reading with given, waiting := none }
  | .optionsAndOperands, some _, _ => .error .usage
  | .optionsAndOperands, none, .separator => .ok { reading with mode := .operandsOnly }
  | .optionsAndOperands, none, .long s => (readLong reading.given s).map reading.resume
  | .optionsAndOperands, none, .letters s => (readLetters reading.given s).map reading.resume
  | _, _, _ => reading.readPlain word

def finish (reading : CommandReading) : Except ArgumentStop (List LevelArguments) :=
  if reading.mode = .helpTopic then .error (.help reading.given.level)
  else if reading.waiting.isNone && reading.given.isComplete then
    .ok (reading.given :: reading.outer)
  else .error .usage

end CommandReading

def readWords (words : List String) : Except ArgumentStop (List LevelArguments) := do
  (← words.foldlM CommandReading.next {}).finish

end RepoGraph
