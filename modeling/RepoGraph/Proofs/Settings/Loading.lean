import Mathlib.Data.List.DropRight
import RepoGraph.Proofs.Settings.Saving

/-!
# Loading over a session

A loader is used again and again while its files change. What it keeps is known from the requests
since it last forgot: the first of them that read the user's file and found settings there. Every
load rests on these, or else on the user's file as it is, and on the checkout's file as it is.
-/

namespace RepoGraph

namespace SettingsLoader

def userSettings (path : Option String) (store : FileStore) :
    Except SettingsError (Option Settings) :=
  match path with
  | none => .ok none
  | some path => Settings.readFile? store path

/-- The settings of a checkout, if there is one, as its file holds them. -/
def checkoutSettings (root : Option String) (store : FileStore) :
    Except SettingsError (Option Settings) :=
  match root with
  | none => .ok none
  | some root => Settings.loadLocal store root

def found (result : Except SettingsError (Option Settings)) : Option Settings :=
  result.toOption.join

theorem loadGlobal_eq (loader : SettingsLoader) (store : FileStore) :
    loader.loadGlobal store =
      ({ loader with kept := loader.kept.or (found (userSettings loader.globalPath? store)) },
        match loader.kept with
        | some settings => .ok (some settings)
        | none => userSettings loader.globalPath? store) := by
  obtain ⟨directory, kept⟩ := loader
  rw [loadGlobal]
  dsimp only
  cases kept with
  | some settings => rfl
  | none =>
    cases globalPath? ⟨directory, none⟩ with
    | none => rfl
    | some path =>
      rw [userSettings]
      dsimp only
      cases Settings.readFile? store path with
      | ok settings => rfl
      | error error => rfl

/-- The outcome of a load by the two readings on which it rests: the user's settings over the usual
ones, the checkout's over these, and what is given for the run over all. -/
def outcome (global own : Except SettingsError (Option Settings)) (given : Overrides) :
    Except SettingsError Settings :=
  match global, own with
  | .error error, _ => .error error
  | .ok _, .error error => .error error
  | .ok global, .ok own =>
    (((({} : Settings).overlay (global.getD {})).overlay (own.getD {})).override given).checked

theorem load_eq (loader : SettingsLoader) (store : FileStore) (root : Option String)
    (given : Overrides) :
    loader.load store root given =
      ((loader.loadGlobal store).1,
        outcome (loader.loadGlobal store).2 (checkoutSettings root store) given) := by
  rw [load]
  dsimp only
  cases (loader.loadGlobal store).2 with
  | error error => rfl
  | ok global =>
    cases root with
    | none => rfl
    | some root =>
      rw [checkoutSettings]
      dsimp only
      cases Settings.loadLocal store root with
      | error error => rfl
      | ok own => rfl

end SettingsLoader

private theorem Settings.ensureFile_cases (store : FileStore) (path : String) :
    match ensureFile store path with
    | (later, .ok found) => found = path ∧
        if store.contains path then later = store else readFile later path = .ok {}
    | (_, .error _) => store.contains path = false := by
  rw [ensureFile]
  cases hthere : store.contains path with
  | true => exact ⟨rfl, rfl⟩
  | false =>
    rw [if_neg Bool.false_ne_true]
    rcases hsave : save store path {} with ⟨later, result⟩
    cases result with
    | error error => rfl
    | ok saved => exact ⟨rfl, (readFile_save hsave).2⟩

/-- A loader and the files around it. -/
structure SettingsSession where
  loader : SettingsLoader
  store : FileStore

inductive SettingsRequest where
  | load (root : Option String) (given : Overrides)
  | loadGlobal
  | loadLocal (root : String)
  | loadFile (path : String) (given : Overrides)
  | ensureGlobal
  | ensureLocal (root : String)
  | saveLocal (root : String) (settings : Settings)
  | forget
  /-- The files are changed from outside. -/
  | outside (store : FileStore)

def SettingsRequest.isForget : SettingsRequest → Bool
  | forget => true
  | _ => false

namespace SettingsSession

def start (directory : Option String) (store : FileStore) : SettingsSession :=
  ⟨{ globalDirectory := directory }, store⟩

def step (session : SettingsSession) : SettingsRequest → SettingsSession
  | .load root given =>
    { session with loader := (session.loader.load session.store root given).1 }
  | .loadGlobal => { session with loader := (session.loader.loadGlobal session.store).1 }
  | .loadLocal _ | .loadFile _ _ => session
  | .ensureGlobal => { session with store := (session.loader.ensureGlobal session.store).1 }
  | .ensureLocal root =>
    { session with store := (Settings.ensureFile session.store (Settings.localPath root)).1 }
  | .saveLocal root settings =>
    { session with store := (Settings.save session.store (Settings.localPath root) settings).1 }
  | .forget => { session with loader := session.loader.forget }
  | .outside store => { session with store }

def run (session : SettingsSession) (requests : List SettingsRequest) : SettingsSession :=
  requests.foldl step session

/-- The requests with the files that each of them met. -/
def history (session : SettingsSession) : List SettingsRequest → List (FileStore × SettingsRequest)
  | [] => []
  | request :: requests => (session.store, request) :: (session.step request).history requests

theorem run_concat (session : SettingsSession) (requests : List SettingsRequest)
    (request : SettingsRequest) :
    session.run (requests ++ [request]) = (session.run requests).step request := by
  rw [run, List.foldl_append]
  rfl

private theorem history_concat (session : SettingsSession) (requests : List SettingsRequest)
    (request : SettingsRequest) :
    session.history (requests ++ [request]) =
      session.history requests ++ [((session.run requests).store, request)] := by
  induction requests generalizing session with
  | nil => rfl
  | cons first requests ih =>
    rw [List.cons_append, history, ih, history]
    rfl

end SettingsSession

open SettingsLoader

def SettingsRequest.found (path : Option String) (store : FileStore) :
    SettingsRequest → Option Settings
  | load _ _ | loadGlobal => SettingsLoader.found (userSettings path store)
  | _ => none

/-- The user's settings that were first found since the loader last forgot. -/
def firstFound (path : Option String) (history : List (FileStore × SettingsRequest)) :
    Option Settings :=
  (history.rtakeWhile fun event => !event.2.isForget).findSome? fun event =>
    event.2.found path event.1

private theorem firstFound_concat (path : Option String)
    (history : List (FileStore × SettingsRequest)) (store : FileStore) (request : SettingsRequest) :
    firstFound path (history ++ [(store, request)]) =
      if request.isForget then none
      else (firstFound path history).or (request.found path store) := by
  rw [firstFound, List.rtakeWhile_concat]
  cases request.isForget with
  | true => rfl
  | false => simp [firstFound, List.findSome?_append]

namespace SettingsSession

/-- A request keeps what is kept, adds what it finds, or forgets. -/
theorem loader_step (session : SettingsSession) (request : SettingsRequest) :
    (session.step request).loader = { session.loader with
      kept := if request.isForget then none
        else session.loader.kept.or
          (request.found session.loader.globalPath? session.store) } := by
  cases request with
  | load root given =>
    rw [step, load_eq, loadGlobal_eq]
    rfl
  | loadGlobal =>
    rw [step, loadGlobal_eq]
    rfl
  | forget => rfl
  | _ => simp [step, SettingsRequest.isForget, SettingsRequest.found]

private theorem globalPath?_step (session : SettingsSession) (request : SettingsRequest) :
    (session.step request).loader.globalPath? = session.loader.globalPath? := by
  rw [loader_step]
  rfl

private theorem globalPath?_run (session : SettingsSession) (requests : List SettingsRequest) :
    (session.run requests).loader.globalPath? = session.loader.globalPath? := by
  induction requests using List.reverseRecOn with
  | nil => rfl
  | append_singleton requests request ih => rw [run_concat, globalPath?_step, ih]

private theorem kept_run (directory : Option String) (store : FileStore)
    (requests : List SettingsRequest) :
    ((start directory store).run requests).loader.kept =
      firstFound (start directory store).loader.globalPath?
        ((start directory store).history requests) := by
  induction requests using List.reverseRecOn with
  | nil => rfl
  | append_singleton requests request ih =>
    rw [run_concat, loader_step, history_concat, firstFound_concat, ih, globalPath?_run]

/-- After any requests, a load rests on the user's settings that were first found since the loader
last forgot, or if there are none on the user's file as it is, and on the checkout's file as it is.
Making a file leaves one that is there alone, and else gives one that loads as the usual
settings. -/
theorem load_run (directory : Option String) (store : FileStore)
    (requests : List SettingsRequest) :
    let path := directory.map (DiskPath.join · Settings.fileName)
    let session := (start directory store).run requests
    let kept := firstFound path ((start directory store).history requests)
    session.loader.kept = kept ∧
    (∀ root given, (session.loader.load session.store root given).2 =
      outcome (match kept with
        | some settings => .ok (some settings)
        | none => userSettings path session.store) (checkoutSettings root session.store) given) ∧
    session.loader.ensureGlobal session.store =
      path.elim (session.store, .error .noHome) (Settings.ensureFile session.store) ∧
    ∀ file, match Settings.ensureFile session.store file with
      | (later, .ok found) => found = file ∧
          if session.store.contains file then later = session.store
          else Settings.readFile later file = .ok {}
      | (_, .error _) => session.store.contains file = false := by
  intro path session kept
  have hpath : session.loader.globalPath? = path := globalPath?_run _ _
  have hkept : session.loader.kept = kept := kept_run directory store requests
  refine ⟨hkept, ?_, ?_, ?_⟩
  · intro root given
    rw [load_eq, loadGlobal_eq, hpath, hkept]
  · rw [ensureGlobal, hpath]
    cases path with
    | none => rfl
    | some file => rfl
  · exact Settings.ensureFile_cases session.store

end SettingsSession

end RepoGraph
