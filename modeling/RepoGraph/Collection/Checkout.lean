import RepoGraph.Collection.Basic
import RepoGraph.Collection.Ignore
/-!
# Checkouts

The tree of a directory in a file store. Its listing leaves out what is in excluded directories,
what ignore files say, and hidden files and directories of which no ignore file speaks.
-/
namespace RepoGraph
open Text

namespace Place

def isHidden : Place → Bool
  | name :: _ => startsWith ['.'] name.toList
  | [] => false

def isExcluded : Place → Bool
  | name :: _ => defaultExcludedDirs.contains name
  | [] => false

def outwardTo (place base : Place) : List Place :=
  (outward place).takeWhile fun outer => base.length < outer.length

end Place

/-- Whether a listing leaves out a place, the places around it aside. -/
def IgnoreTable.skips (table : IgnoreTable) (place : Place) (isDirectory : Bool) : Bool :=
  (isDirectory && place.isExcluded) ||
    match table.verdict? place isDirectory with
    | some .ignored => true
    | some .kept => false
    | none => place.isHidden

/-- Whether a file below a base is listed: neither it nor a directory on the way to it is left
out. -/
def IgnoreTable.lists (table : IgnoreTable) (base place : Place) : Bool :=
  base.isSuffixOf place && !table.skips place false &&
    (Place.outwardTo place.tail base).all fun outer => !table.skips outer true

def directorySize : Nat := 4096

namespace FileStore

def listing (store : FileStore) (user : UserDirectories) (base : Place) : List String :=
  let table := store.ignoreTable user
  let paths := store.files.filterMap fun (place, _) =>
    if table.lists base place then
      some ((place.pathFrom base).map fun c => if c = '\\' then '/' else c)
    else none
  paths.mergeSort

def fetchBelow (store : FileStore) (base : Place) (path : String) : Except FetchError ByteArray :=
  match store.read (DiskPath.join base.path path) with
  | .ok content => .ok content
  | .error error => .error (.io path error.message)

def firstLineIn (bytes : List UInt8) : String :=
  String.ofList (cutBlanks (decodeLossy (bytes.takeWhile (· != 0x0A))))

def treeAt (store : FileStore) (user : UserDirectories) (base : Place) : RepoTree where
  listing := .ok (store.listing user base)
  fetch := store.fetchBelow base
  firstLine := fun path =>
    (store.fetchBelow base path).map fun content => firstLineIn (content.toList.take sniffLength)
  size? := fun path =>
    match store.entry (DiskPath.join base.path path) with
    | .ok (.file content _) => some content.size
    | .ok .directory => some directorySize
    | .error _ => none

def checkout (store : FileStore) (user : UserDirectories) (root : String) :
    Except CollectionError RepoTree :=
  match store.entry root, store.locate root with
  | .ok .directory, .ok base => .ok (store.treeAt user base)
  | .ok _, _ => .error (.inaccessible (root ++ " is not a directory"))
  | .error _, _ => .error (.rootNotFound root)

end FileStore

end RepoGraph
