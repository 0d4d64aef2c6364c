import RepoGraph.FileStore.Basic
import RepoGraph.Settings.Toml
/-!
# Loading settings

Settings come from a file of the user, a file of the checkout, and what is given for one run, each
layer over the one before. A loader keeps the user's settings once it has read them. What it does is
a function of the file store at that time, so anything may happen to the store in between.
-/
namespace RepoGraph

inductive SettingsError where
  | unreadable (path : String) (error : FileError)
  | malformed (path : String)
  | unwritable
  | notWritten (path : String) (error : FileError)
  | noDirectory (path : String) (error : FileError)
  | noHome
  | outOfRange (fault : SettingFault)
  deriving DecidableEq, Repr

/-- The wording of the error. Of a malformed file and of settings that no document holds it says no
more than that. -/
def SettingsError.message : SettingsError → String
  | unreadable path error => "failed to read config file '" ++ path ++ "': " ++ error.message
  | malformed path => "failed to parse config file '" ++ path ++ "': TOML parse error"
  | unwritable => "failed to serialize config"
  | notWritten path error => "failed to write config file '" ++ path ++ "': " ++ error.message
  | noDirectory path error =>
    "failed to create config directory '" ++ path ++ "': " ++ error.message
  | noHome => "could not determine home directory"
  | outOfRange fault =>
    "invalid configuration value for '" ++ fault.key ++ "': " ++ fault.demand

namespace Settings

def fileName : String := "config.toml"

def directoryName : String := ".archgraph"

def localPath (root : String) : String := DiskPath.join (DiskPath.join root directoryName) fileName

def readFile (store : FileStore) (path : String) : Except SettingsError Settings :=
  match store.readText path with
  | .error error => .error (.unreadable path error)
  | .ok text =>
    match parse? text with
    | some settings => .ok settings
    | none => .error (.malformed path)

def readFile? (store : FileStore) (path : String) : Except SettingsError (Option Settings) :=
  if store.contains path then (readFile store path).map some else .ok none

def loadLocal (store : FileStore) (root : String) : Except SettingsError (Option Settings) :=
  readFile? store (localPath root)

def makeRoom (store : FileStore) (path : String) : Except SettingsError FileStore :=
  match DiskPath.parents path with
  | [] => .ok store
  | parent :: _ =>
    if store.contains parent then .ok store
    else (store.makeDirectories parent).mapError (.noDirectory parent)

/-- Writes settings to a file, and makes its directory first. That directory stays even if the rest
fails. -/
def save (store : FileStore) (path : String) (settings : Settings) :
    FileStore × Except SettingsError Unit :=
  match makeRoom store path with
  | .error error => (store, .error error)
  | .ok roomy =>
    match settings.render? with
    | none => (roomy, .error .unwritable)
    | some text =>
      match roomy.write path text.toUTF8 with
      | .ok written => (written, .ok ())
      | .error error => (roomy, .error (.notWritten path error))

def ensureFile (store : FileStore) (path : String) : FileStore × Except SettingsError String :=
  if store.contains path then (store, .ok path)
  else
    let (store, result) := save store path {}
    (store, result.map fun _ => path)

def checked (settings : Settings) : Except SettingsError Settings :=
  match settings.fault? with
  | some fault => .error (.outOfRange fault)
  | none => .ok settings

def loadFile (store : FileStore) (path : String) (given : Overrides) :
    Except SettingsError Settings := do
  (((← readFile store path).override given)).checked

end Settings

structure SettingsLoader where
  globalDirectory : Option String
  /-- The user's settings, once they were read. -/
  kept : Option Settings := none
  deriving DecidableEq, Repr

namespace SettingsLoader

def ofHome (home : Option String) : SettingsLoader where
  globalDirectory := home.map (DiskPath.join · Settings.directoryName)

def globalPath? (loader : SettingsLoader) : Option String :=
  loader.globalDirectory.map (DiskPath.join · Settings.fileName)

/-- The user's settings, and the loader that keeps them. -/
def loadGlobal (loader : SettingsLoader) (store : FileStore) :
    SettingsLoader × Except SettingsError (Option Settings) :=
  match loader.kept, loader.globalPath? with
  | some settings, _ => (loader, .ok (some settings))
  | none, none => (loader, .ok none)
  | none, some path =>
    match Settings.readFile? store path with
    | .ok found => ({ loader with kept := found }, .ok found)
    | .error error => (loader, .error error)

/-- The usual settings under those of the user and those of a checkout. -/
def layered (global localSettings : Option Settings) : Settings :=
  ((({} : Settings).overlay (global.getD {})).overlay (localSettings.getD {}))

/-- The settings for a checkout, if there is one, with what is given for one run. -/
def load (loader : SettingsLoader) (store : FileStore) (root : Option String) (given : Overrides) :
    SettingsLoader × Except SettingsError Settings :=
  let (loader, global) := loader.loadGlobal store
  (loader, do
    let global ← global
    let localSettings ← match root with
      | some root => Settings.loadLocal store root
      | none => pure none
    ((layered global localSettings).override given).checked)

def ensureGlobal (loader : SettingsLoader) (store : FileStore) :
    FileStore × Except SettingsError String :=
  match loader.globalPath? with
  | some path => Settings.ensureFile store path
  | none => (store, .error .noHome)

def forget (loader : SettingsLoader) : SettingsLoader := { loader with kept := none }

end SettingsLoader

end RepoGraph
