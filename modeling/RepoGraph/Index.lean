import RepoGraph.Manifest.Basic
import RepoGraph.Source.Comment
import RepoGraph.Import.Jvm
import RepoGraph.Import.CSharp
import RepoGraph.Import.Php
import Std.Data.HashMap
/-!
# The index of a repository

What a reference is looked up in: the files by path and by name, the packages and namespaces that
sources declare, the Go modules and the manifests of each directory.
-/
namespace RepoGraph
open Text

def insertOrdered (before : α → α → Bool) (a : α) : List α → List α
  | [] => [a]
  | b :: rest => if before a b then a :: b :: rest else b :: insertOrdered before a rest

def SourceFile.declaredNamespaces (file : SourceFile) : List String :=
  let reader? : Option (CommentStyle × (List Char → Option (List Char))) :=
    match file.language with
    | .java | .kotlin => some (.slash, Import.Jvm.package?)
    | .cSharp => some (.slash, Import.CSharp.namespace?)
    | .php => some (.slashAndHash, Import.Php.namespace?)
    | _ => none
  match reader? with
  | some (style, read) => (codeLines style file.content.toList).filterMap fun line =>
    (read line.code).map String.ofList
  | none => []

structure GoModule where
  path : String
  dir : String
  deriving DecidableEq, Repr

namespace GoModule

/-- Whether a module is asked before another one: the longer path first, then in byte order. -/
def precedes (a b : GoModule) : Bool :=
  b.path.utf8ByteSize < a.path.utf8ByteSize ||
    (a.path.utf8ByteSize == b.path.utf8ByteSize && a.path < b.path)

def packageDir? (module : GoModule) (path : String) : Option String :=
  if path = module.path then some module.dir
  else (stripStart? (module.path.toList ++ ['/']) path.toList).map fun rest =>
    Path.join module.dir (String.ofList rest)

end GoModule

structure RepoIndex where
  files : Std.HashMap String Language := {}
  /-- The paths of the files with a name, in byte order. -/
  named : Std.HashMap String (List String) := {}
  /-- The languages of the files that first declared a package or namespace. -/
  namespaces : Std.HashMap String Language := {}
  /-- The Go modules in the order in which they are asked. -/
  goModules : List GoModule := []
  /-- The manifests in a directory, in the byte order of their paths. -/
  manifests : Std.HashMap String (List Manifest) := {}

namespace RepoIndex

def addFile (index : RepoIndex) (path : String) (language : Language) : RepoIndex :=
  let name := Path.fileName path
  let paths := index.named.getD name []
  { index with
    files := index.files.insert path language
    named := index.named.insert name
      (if paths.contains path then paths else insertOrdered (· < ·) path paths) }

/-- Adds a package or namespace; the first language stays. -/
def addNamespace (index : RepoIndex) (name : String) (language : Language) : RepoIndex :=
  { index with namespaces := index.namespaces.insertIfNew name language }

def addGoModule (index : RepoIndex) (module : GoModule) : RepoIndex :=
  { index with goModules := insertOrdered GoModule.precedes module index.goModules }

def moduleOf? (manifest : Manifest) : Option GoModule :=
  if manifest.kind = .goMod then manifest.modulePath.map (⟨·, manifest.dir⟩) else none

def addManifest (index : RepoIndex) (manifest : Manifest) : RepoIndex :=
  let inDir := index.manifests.getD manifest.dir []
  let ordered := insertOrdered (fun a b => a.path < b.path) manifest inDir
  let index := { index with manifests := index.manifests.insert manifest.dir ordered }
  match moduleOf? manifest with
  | some module => index.addGoModule module
  | none => index

def addSource (index : RepoIndex) (file : SourceFile) : RepoIndex :=
  file.declaredNamespaces.foldl (fun index name => index.addNamespace name file.language)
    (index.addFile file.path file.language)

def build (files : List SourceFile) (manifests : List Manifest) : RepoIndex :=
  manifests.foldl addManifest (files.foldl addSource {})

def contains (index : RepoIndex) (path : String) : Bool := index.files.contains path

def language? (index : RepoIndex) (path : String) : Option Language := index.files[path]?

def namespaceLanguage? (index : RepoIndex) (name : String) : Option Language :=
  index.namespaces[name]?

def hasNamespace (index : RepoIndex) (name : String) : Bool := index.namespaces.contains name

/-- Whether a path is a suffix of another one at a segment boundary. -/
def isPathSuffix (suffix path : String) : Bool :=
  path == suffix || endsWith ('/' :: suffix.toList) path.toList

/-- The first file in byte order whose path ends in a path, slashes at its start aside. -/
def findBySuffix? (index : RepoIndex) (suffix : String) : Option String :=
  let suffix := String.ofList (suffix.toList.dropWhile (· == '/'))
  (index.named.getD (Path.fileName suffix) []).find? (isPathSuffix suffix)

/-- The directory of an imported Go package that lies in a module of the repository. -/
def goPackageDir? (index : RepoIndex) (path : String) : Option String :=
  index.goModules.findSome? (·.packageDir? path)

/-- The version of a package that the nearest manifest of its ecosystem declares, from the directory
of a file upwards. -/
def declaredVersion? (index : RepoIndex) (file : String) (ecosystem : Ecosystem)
    (package : String) : Option String :=
  (Path.ancestors (Path.parent file)).findSome? fun dir =>
    ((index.manifests.getD dir []).filter (·.kind.ecosystem = ecosystem)).findSome?
      (·.version? package)

def manifestCount (index : RepoIndex) : Nat :=
  index.manifests.fold (fun count _ manifests => count + manifests.length) 0

end RepoIndex

end RepoGraph
