import RepoGraph.Text.Utf8
import RepoGraph.Text.Split
import Std.Data.HashMap
/-!
# Repository trees

A tree answers which files there are and what is in them. Everything else works on its answers, so a
tree is the record of them.
-/
namespace RepoGraph

inductive CollectionError where
  | rootNotFound (root : String)
  | inaccessible (reason : String)
  | io (reason : String)
  /-- No file is a source; the number of paths that were considered. -/
  | noSupportedSource (considered : Nat)
  deriving DecidableEq, Repr

def CollectionError.message : CollectionError → String
  | rootNotFound root => "Repository root does not exist: " ++ root
  | inaccessible reason => "Repository is inaccessible: " ++ reason
  | io reason => "IO error: " ++ reason
  | noSupportedSource considered =>
    "No supported source files found (" ++ toString considered ++ " paths considered)"

inductive FetchError where
  | notFound (path : String)
  | io (path reason : String)
  | binary (path : String)
  | tooLarge (path : String) (size limit : Nat)
  deriving DecidableEq, Repr

def FetchError.message : FetchError → String
  | notFound path => "File not found in tree: " ++ path
  | io path reason => "Failed to read " ++ path ++ ": " ++ reason
  | binary path => "Binary content in " ++ path
  | tooLarge path size limit =>
    path ++ " is " ++ toString size ++ " bytes, above the " ++ toString limit ++ " byte limit"

/-- The answers of a repository: paths with slashes, relative to its root. -/
structure RepoTree where
  listing : Except CollectionError (List String)
  fetch : String → Except FetchError ByteArray
  firstLine : String → Except FetchError String
  /-- The size of a file, where it is known without reading the file. -/
  size? : String → Option Nat

def firstLineOf (bytes : ByteArray) : String :=
  String.ofList (Text.decodeLossy (bytes.toList.takeWhile (· != 0x0A)))

/-- Files in memory, and paths that are listed but cannot be read. -/
structure MemoryTree where
  files : List (String × ByteArray)
  unreadable : List String

namespace MemoryTree

def sorted (texts : List String) : List String := texts.mergeSort.eraseReps

def fetch (table : Std.HashMap String ByteArray) (unreadable : List String) (path : String) :
    Except FetchError ByteArray :=
  if unreadable.contains path then .error (.io path "unreadable")
  else match table[path]? with
    | some bytes => .ok bytes
    | none => .error (.notFound path)

/-- The tree of the files. The paths that cannot be read are listed after the others. -/
def toTree (memory : MemoryTree) : RepoTree :=
  let table := Std.HashMap.ofList memory.files
  let fetch := fetch table memory.unreadable
  { listing := .ok (sorted (memory.files.map (·.1)) ++ sorted memory.unreadable)
    fetch
    firstLine := fun path => (fetch path).map firstLineOf
    size? := fun path => table[path]?.map (·.size) }

end MemoryTree

end RepoGraph
