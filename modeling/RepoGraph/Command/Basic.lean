import RepoGraph.Command.Arguments
import RepoGraph.Json.Writer
/-!
# Commands

What a command line asks for.
-/
namespace RepoGraph

structure CommonOptions where
  /-- The settings file that stands for those of user and checkout. -/
  settingsFile : Option String := none
  quiet : Bool := false
  verbose : Bool := false
  logFormat : Option LogFormat := none
  deriving DecidableEq, Repr

inductive Command where
  | graph (target : String) (given : Overrides) (layout : JsonLayout) (output : Option String)
    (fingerprint : Bool)
  | stats (target : String) (given : Overrides) (top : Nat) (json : Bool)
  | listSettings (root : String) (json : Bool)
  | getSetting (key root : String) (json : Bool)
  | initSettings (forUser : Bool) (root : String)
  | showPaths (root : String) (json : Bool)
  deriving DecidableEq, Repr

structure CommandLine where
  common : CommonOptions
  command : Command
  deriving DecidableEq, Repr

namespace LevelArguments

def value? (given : LevelArguments) (long : String) : Option String := (given.values long).head?

def word64? (given : LevelArguments) (long : String) : Option UInt64 :=
  (given.value? long).bind readWord64?

def overrides (given : LevelArguments) : Overrides where
  maxFiles := given.word64? "max-files"
  maxFilesPerDir := given.word64? "max-files-per-dir"
  nodeCap := given.word64? "node-cap"
  minWeight := (given.value? "min-weight").bind readWord32?
  maxEdges := given.word64? "max-edges"
  language := given.value? "language"
  excludePatterns := given.values "exclude"

def root (given : LevelArguments) : String := (given.value? "root").getD "."

def usualTop : UInt64 := 10

def command? (given : LevelArguments) : Option Command :=
  let operand := given.operand.getD ""
  let json := given.has "json"
  match given.level with
  | .graph =>
    let layout := if given.has "pretty" then .indented else .compact
    some (.graph operand given.overrides layout (given.value? "output") (given.has "fingerprint"))
  | .stats =>
    some (.stats operand given.overrides ((given.word64? "top").getD usualTop).toNat json)
  | .settingsList => some (.listSettings given.root json)
  | .settingsGet => some (.getSetting operand given.root json)
  | .settingsInit => some (.initSettings (given.has "global") given.root)
  | .settingsPath => some (.showPaths given.root json)
  | .top | .settings => none

/-- Whether the variables that stand for options which are not given have values that the options
accept. -/
def admits (given : LevelArguments) (environment : List (String × String)) : Bool :=
  CommandLevel.commonOptions.all fun form =>
    match form.variableName.bind fun name => environment.lookup name with
    | some value => given.has form.long || form.kind.accepts value
    | none => true

end LevelArguments

/-- The common options: those given at an inner level go before those at an outer one, and those
before variables. -/
def CommonOptions.ofLevels (levels : List LevelArguments) (environment : List (String × String)) :
    CommonOptions :=
  let value (form : String) (name : String) :=
    (levels.findSome? (·.value? form)).or (environment.lookup name)
  { settingsFile := value "config" "ARCHGRAPH_CONFIG"
    quiet := levels.any (·.has "quiet")
    verbose := levels.any (·.has "verbose")
    logFormat := (value "log-format" "ARCHGRAPH_LOG_FORMAT").bind readLogFormat? }

def CommandLine.parse (words : List String) (environment : List (String × String)) :
    Except ArgumentStop CommandLine := do
  let levels ← readWords words
  if !levels.all (·.admits environment) then throw .usage
  match levels.head?.bind LevelArguments.command? with
  | some command => return { common := .ofLevels levels environment, command }
  | none => throw .usage

end RepoGraph
