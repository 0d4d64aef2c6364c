import RepoGraph.Resolve.Lookup
/-!
# References by module path

The rules of Go, which imports directories, and of Rust, whose modules are files in a tree of their
own.
-/
namespace RepoGraph.Importer
open Text

/-- What a Go import means: a path relative to the file, a directory of a module of the repository,
whose root is named by its import path, or a module outside. -/
def go? (importer : Importer) (token : String) : Option Target :=
  if token.toList.head? = some '.' then importer.relative? token fun _ => none
  else
    match importer.index.goPackageDir? token with
    | some dir => some (importer.internal (if dir.isEmpty then token else dir))
    | none => importer.external? token

def childDir (file : String) : String :=
  if ["lib.rs", "main.rs", "mod.rs"].contains (Path.fileName file) then Path.parent file
  else Path.join (Path.parent file) (Path.stem file)

def moduleFiles (path : String) : List String :=
  (if path.isEmpty then [] else [path ++ ".rs"]) ++
    ["mod.rs", "lib.rs", "main.rs"].map (Path.join path)

def moduleFile? (index : RepoIndex) (path : String) : Option String :=
  (moduleFiles path).find? index.contains

def holdsCrate (index : RepoIndex) (dir : String) : Bool :=
  index.contains (Path.join dir "lib.rs") || index.contains (Path.join dir "main.rs")

def crateRoot (index : RepoIndex) (file : String) : String :=
  ((Path.ancestors (Path.parent file)).find? (holdsCrate index)).getD (Path.parent file)

def climbSupers? (dir : String) : List String → Option (String × List String)
  | [] => some (dir, [])
  | segment :: rest =>
    if segment = "super" then if dir.isEmpty then none else climbSupers? (Path.parent dir) rest
    else some (dir, segment :: rest)

/-- Where a module path starts: the directory of its first module and the segments seen from there.
The outer option is none for a path above the root, the inner one for a name outside the crate. -/
def pathStart? (importer : Importer) (segments : List String) :
    Option (Option (String × List String)) :=
  let own := childDir importer.file
  let root := crateRoot importer.index importer.file
  match segments with
  | [] => some none
  | "crate" :: rest => some (some (root, rest))
  | "self" :: rest => some (some (own, rest))
  | "super" :: _ => (climbSupers? own segments).map some
  | name :: _ =>
    if (moduleFile? importer.index (Path.join own name)).isSome then some (some (own, segments))
    else if (moduleFile? importer.index (Path.join root name)).isSome then
      some (some (root, segments))
    else some none

/-- The file of the longest initial part of a module path, or else the path itself. -/
def moduleId (index : RepoIndex) (dir : String) (segments : List String) : String :=
  let path := fun part => Path.join dir (String.intercalate "/" part)
  ((initialParts 0 segments).findSome? fun part => moduleFile? index (path part)).getD
    (path segments)

def rust? (importer : Importer) (token : String) : Option Target :=
  let segments := ((splitOnText [':', ':'] token.toList).filter (!·.isEmpty)).map String.ofList
  if segments.isEmpty then none
  else
    match importer.pathStart? segments with
    | none => none
    | some none => importer.external? token
    | some (some (dir, rest)) => some (importer.internal (moduleId importer.index dir rest))

end RepoGraph.Importer
