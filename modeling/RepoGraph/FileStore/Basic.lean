import RepoGraph.FileStore.DiskPath
import RepoGraph.Text.Utf8
import Std.Data.HashMap
/-!
# File stores

The files and directories of a machine as a value. Reading asks the store; writing gives the store
afterwards. A path is followed name by name, each time from a directory.
-/
namespace RepoGraph

inductive FileError where
  | notFound
  | permissionDenied
  | alreadyThere
  | notDirectory
  | isDirectory
  | nameTooLong
  | badName
  | notText
  | notProgram
  deriving DecidableEq, Repr

def FileError.message : FileError → String
  | notFound => "No such file or directory (os error 2)"
  | permissionDenied => "Permission denied (os error 13)"
  | alreadyThere => "File exists (os error 17)"
  | notDirectory => "Not a directory (os error 20)"
  | isDirectory => "Is a directory (os error 21)"
  | nameTooLong => "File name too long (os error 36)"
  | badName => "file name contained an unexpected NUL byte"
  | notText => "stream did not contain valid UTF-8"
  | notProgram => "Exec format error (os error 8)"

inductive FileEntry where
  | file (content : ByteArray) (executable : Bool)
  | directory

/-- A place in a file store: the names from the innermost one out to the root. -/
abbrev Place := List String

namespace Place

def path (place : Place) : String := "/" ++ "/".intercalate place.reverse

/-- The path of a place below a directory; from elsewhere the absolute path. -/
def pathFrom (place base : Place) : String :=
  if base.isSuffixOf place then "/".intercalate (place.take (place.length - base.length)).reverse
  else place.path

/-- The path of a place without the path of another at its start, even where that ends within a
name, and without a slash at the start of what is left. -/
def pathAfter (place base : Place) : String :=
  let whole := place.path.toList
  let rest := (Text.stripStart? base.path.toList whole).getD whole
  String.ofList ((Text.stripStart? ['/'] rest).getD rest)

def outward : Place → List Place
  | [] => [[]]
  | name :: outer => (name :: outer) :: outward outer

end Place

structure FileStore where
  /-- What is at each place but the root, which is a directory. -/
  entries : Std.HashMap Place FileEntry := {}
  here : Place := []

namespace FileStore

def entryAt (store : FileStore) : Place → Option FileEntry
  | [] => some .directory
  | place => store.entries[place]?

def put (store : FileStore) (place : Place) (entry : FileEntry) : FileStore :=
  { store with entries := store.entries.insert place entry }

def nameLimit : Nat := 255

def pathLimit : Nat := 4095

/-- The place that is reached by names. The place itself may be empty; on the way to it each name is
followed from a directory. -/
def follow (store : FileStore) (place : Place) : List String → Except FileError Place
  | [] => .ok place
  | name :: rest =>
    match store.entryAt place with
    | none => .error .notFound
    | some (.file _ _) => .error .notDirectory
    | some .directory =>
      if name = "" ∨ name = "." then store.follow place rest
      else if name = ".." then store.follow place.tail rest
      else if nameLimit < name.utf8ByteSize then .error .nameTooLong
      else store.follow (name :: place) rest

def locateSegments (store : FileStore) (path : String) (segments : List String) :
    Except FileError Place :=
  if path.isEmpty then .error .notFound
  else if path.toList.contains '\x00' then .error .badName
  else if pathLimit < path.utf8ByteSize then .error .nameTooLong
  else store.follow (if DiskPath.isAbsolute path then [] else store.here) segments

def locate (store : FileStore) (path : String) : Except FileError Place :=
  store.locateSegments path (Path.segments path)

def entry (store : FileStore) (path : String) : Except FileError FileEntry := do
  match store.entryAt (← store.locate path) with
  | some found => .ok found
  | none => .error .notFound

def contains (store : FileStore) (path : String) : Bool := (store.entry path).toOption.isSome

def isDirectory (store : FileStore) (path : String) : Bool :=
  match store.entry path with
  | .ok .directory => true
  | _ => false

def isFile (store : FileStore) (path : String) : Bool :=
  match store.entry path with
  | .ok (.file _ _) => true
  | _ => false

def read (store : FileStore) (path : String) : Except FileError ByteArray := do
  match ← store.entry path with
  | .file content _ => .ok content
  | .directory => .error .isDirectory

def readText (store : FileStore) (path : String) : Except FileError String := do
  match Text.decode? (← store.read path).toList with
  | some text => .ok (String.ofList text)
  | none => .error .notText

def solidSegments (path : String) : List String :=
  ((Path.segments path).reverse.dropWhile (· = "")).reverse

/-- The store after a file was written. A file that is there already stays executable or not. -/
def write (store : FileStore) (path : String) (content : ByteArray) :
    Except FileError FileStore := do
  let segments := solidSegments path
  let place ← store.locateSegments path segments
  if segments ≠ Path.segments path then throw .isDirectory
  match store.entryAt place with
  | some .directory => .error .isDirectory
  | some (.file _ executable) => .ok (store.put place (.file content executable))
  | none => .ok (store.put place (.file content false))

def makeDirectory (store : FileStore) (path : String) : Except FileError FileStore := do
  let place ← store.locateSegments path (solidSegments path)
  match store.entryAt place with
  | some _ => .error .alreadyThere
  | none => .ok (store.put place .directory)

def keepDirectory (store : FileStore) (path : String) : Except FileError FileStore :=
  match store.makeDirectory path with
  | .ok store => .ok store
  | .error error => if store.isDirectory path then .ok store else .error error

/-- Makes the first of some paths; if the directory for it is missing, the others first. -/
def makeChain (store : FileStore) : List String → Except FileError FileStore
  | [] => .ok store
  | path :: parents =>
    match store.keepDirectory path with
    | .error .notFound => do (← store.makeChain parents).keepDirectory path
    | result => result

def makeDirectories (store : FileStore) (path : String) : Except FileError FileStore :=
  store.makeChain (path :: DiskPath.parents path)

def addFile (store : FileStore) (path : String) (content : ByteArray) (executable : Bool) :
    FileStore :=
  let roomy := match DiskPath.parents path with
    | parent :: _ => (store.makeDirectories parent).toOption.getD store
    | [] => store
  match roomy.write path content, roomy.locate path with
  | .ok written, .ok place => written.put place (.file content executable)
  | _, _ => roomy

def enter (store : FileStore) (path : String) : FileStore :=
  let store := (store.makeDirectories path).toOption.getD store
  { store with here := (store.locate path).toOption.getD store.here }

def files (store : FileStore) : List (Place × ByteArray) :=
  store.entries.toList.filterMap fun (place, entry) =>
    match entry with
    | .file content _ => some (place, content)
    | .directory => none

def changesSince (store earlier : FileStore) : List (Place × ByteArray) :=
  store.files.filter fun (place, content) =>
    match earlier.entryAt place with
    | some (.file before _) => before.data != content.data
    | _ => true

end FileStore

end RepoGraph
