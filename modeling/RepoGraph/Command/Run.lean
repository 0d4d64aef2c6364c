import RepoGraph.Collection.Checkout
import RepoGraph.Command.Basic
import RepoGraph.Command.RemoteRepository
import RepoGraph.Command.Report
/-!
# Running commands

A command is run on a machine: its file store, its variables and its `git`. The outcome is what is
printed, the exit code, and the file store afterwards.
-/
namespace RepoGraph

structure ProgramResult where
  succeeded : Bool
  complaint : ByteArray
  store : FileStore

structure Machine where
  store : FileStore
  environment : List (String × String)
  /-- The home directory of the account, for which the variable `HOME` stands if it is set. -/
  accountHome : Option String := none
  git : FileStore → List String → Except FileError ProgramResult

namespace Machine

def valueOf? (machine : Machine) (name : String) : Option String :=
  (machine.environment.lookup name).filter (!·.isEmpty)

def user (machine : Machine) : UserDirectories where
  home := (machine.valueOf? "HOME").or machine.accountHome
  settings := machine.valueOf? "XDG_CONFIG_HOME"
  gitSettings := machine.valueOf? "GIT_CONFIG_GLOBAL"
  gitFallback := machine.valueOf? "GIT_CONFIG_SYSTEM"

def loader (machine : Machine) : SettingsLoader := .ofHome machine.user.home

end Machine

/-- What a command prints: its output, and notes beside it. -/
structure Answer where
  output : String := ""
  notes : List String := []
  deriving DecidableEq, Repr

def loadSettings (machine : Machine) (common : CommonOptions) (root : Option String)
    (given : Overrides) : Except Failure Settings :=
  match common.settingsFile with
  | some path =>
    (Settings.loadFile machine.store path given).mapError fun error =>
      (Failure.ofSettings error).inside ("Failed to load config file " ++ path)
  | none =>
    (machine.loader.load machine.store root given).2.mapError fun error =>
      (Failure.ofSettings error).inside "Failed to load configuration"

inductive Subject where
  | directory (path : String)
  | remote (repository : RemoteRepository)
  deriving DecidableEq, Repr

namespace Subject

/-- What a text names: a directory that is there, or else a remote repository. -/
def parse (store : FileStore) (text : String) : Except Failure Subject :=
  if store.isDirectory text then .ok (.directory text)
  else match RemoteRepository.parse? text with
    | some repository => .ok (.remote repository)
    | none => .error
      ⟨"'" ++ text ++ "' is neither an existing directory nor an owner/name repository", []⟩

def settingsRoot? : Subject → Option String
  | directory path => some path
  | remote _ => none

end Subject

def cloneDirectory : String := "/tmp/archgraph-clone/repo"

def clone (machine : Machine) (repository : RemoteRepository) : Except Failure FileStore := do
  let around := (DiskPath.parents cloneDirectory).head?.getD "/"
  let store ← (machine.store.makeDirectories around).mapError fun error =>
    (Failure.ofFile error).inside "Failed to create clone directory"
  let words := ["clone", "--depth", "1", "--quiet", repository.cloneUrl, cloneDirectory]
  let result ← (machine.git store words).mapError fun error =>
    (Failure.ofFile error).inside "Failed to run git"
  if result.succeeded then return result.store
  else
    let complaint := String.ofList (Text.trim (Text.decodeLossy result.complaint.toList))
    throw ⟨"git clone of " ++ repository.cloneUrl ++ " failed: " ++ complaint, []⟩

def Subject.fetch (machine : Machine) : Subject → Except Failure (FileStore × String)
  | directory path =>
    match machine.store.locate path with
    | .ok place => .ok (machine.store, place.path)
    | .error error => .error ((Failure.ofFile error).inside ("Failed to open " ++ path))
  | remote repository => (clone machine repository).map (·, cloneDirectory)

def analyse (machine : Machine) (common : CommonOptions) (target : String) (given : Overrides) :
    Except Failure GraphView := do
  let subject ← Subject.parse machine.store target
  let given := { given with logFormat := common.logFormat }
  let settings ← loadSettings machine common subject.settingsRoot? given
  let options ← settings.options.mapError fun fault =>
    (Failure.ofSettings (.outOfRange fault)).inside "Invalid graph options"
  let (store, root) ← subject.fetch machine
  let tree ← (store.checkout machine.user root).mapError fun error =>
    ⟨"Failed to open " ++ root, [error.message]⟩
  (tree.view options).mapError fun error => ⟨"Failed to analyze " ++ root, [error.message]⟩

def noteUnless (quiet : Bool) (text : String) : List String := if quiet then [] else [text]

def listSettings (machine : Machine) (common : CommonOptions) (root : String) :
    Except Failure (List SourcedSetting) := do
  let effective ← loadSettings machine common (some root) {}
  match common.settingsFile with
  | some _ => return effective.sourcedFile
  | none =>
    let user ← (machine.loader.loadGlobal machine.store).2.mapError Failure.ofSettings
    let checkout ← (Settings.loadLocal machine.store root).mapError Failure.ofSettings
    return effective.sourced (user.getD {}) (checkout.getD {})

def plainText (value : JsonValue) : String :=
  match value.text? with
  | some content => content
  | none => value.render .compact

def settingsPaths (machine : Machine) (root : String) : SettingsPaths where
  user := machine.loader.globalPath?.map fun path => (path, machine.store.contains path)
  checkout := (Settings.localPath root, machine.store.contains (Settings.localPath root))

def Command.run (machine : Machine) (common : CommonOptions) :
    Command → FileStore × Except Failure Answer
  | graph target given layout output fingerprint =>
    match analyse machine common target given with
    | .error failure => (machine.store, .error failure)
    | .ok view =>
      let text := view.render layout ++ "\n"
      let marks := if fingerprint then ["fingerprint: " ++ view.fingerprint] else []
      match output with
      | none => (machine.store, .ok { output := text, notes := marks })
      | some path =>
        match machine.store.write path text.toUTF8 with
        | .ok store =>
          (store, .ok { notes := noteUnless common.quiet ("Wrote " ++ path) ++ marks })
        | .error error =>
          (machine.store, .error ((Failure.ofFile error).inside ("Failed to write " ++ path)))
  | stats target given top json =>
    (machine.store, (analyse machine common target given).map fun view =>
      { output := if json then (view.summaryJson top).page else view.summary top })
  | listSettings root json =>
    (machine.store, (RepoGraph.listSettings machine common root).map fun settings =>
      { output := if json then SourcedSetting.pageJson settings else SourcedSetting.page settings })
  | getSetting key root json =>
    (machine.store, do
      let settings ← loadSettings machine common (some root) {}
      match settings.lookup? key with
      | some value => return { output := if json then value.page else plainText value ++ "\n" }
      | none => throw ⟨"Unknown configuration key: " ++ key, []⟩)
  | initSettings forUser root =>
    let (store, result) :=
      if forUser then
        let (store, result) := machine.loader.ensureGlobal machine.store
        (store, result.mapError Failure.ofSettings)
      else
        let (store, result) := Settings.ensureFile machine.store (Settings.localPath root)
        (store, result.mapError fun error =>
          (Failure.ofSettings error).inside ("Failed to initialize " ++ root))
    (store, result.map fun path =>
      { notes := noteUnless common.quiet ("Configuration at " ++ path) })
  | showPaths root json =>
    let paths := settingsPaths machine root
    (machine.store, .ok { output := if json then paths.toJson.page else paths.page })

structure Outcome where
  store : FileStore
  exitCode : UInt8
  output : String := ""
  notes : List String := []
  failure : Option Failure := none

def versionNumber : String := "0.1.0"

def CommandLevel.help (level : CommandLevel) : String :=
  joinLines <|
    ["Usage: " ++ " ".intercalate (Text.pieces '-' level.title) ++ " [OPTIONS]" ++
      (if level.below.isEmpty then "" else " <COMMAND>") ++
      (if level.needsOperand then " <OPERAND>" else "")] ++
    GraphView.titled "Commands" (level.below.map fun (name, _) => "  " ++ name) ++
    GraphView.titled "Options" (level.options.map fun form => "  --" ++ form.long)

/-- Runs the command line that words are. -/
def Machine.run (machine : Machine) (words : List String) : Outcome :=
  match CommandLine.parse words machine.environment with
  | .error .usage => { store := machine.store, exitCode := 2 }
  | .error (.help level) => { store := machine.store, exitCode := 0, output := level.help }
  | .error (.version level) =>
    { store := machine.store, exitCode := 0
      output := level.title ++ " " ++ versionNumber ++ "\n" }
  | .ok line =>
    match line.command.run machine line.common with
    | (store, .ok answer) =>
      { store, exitCode := 0, output := answer.output, notes := answer.notes }
    | (store, .error failure) => { store, exitCode := 1, failure := some failure }

end RepoGraph
