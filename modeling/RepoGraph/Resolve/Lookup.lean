import RepoGraph.Ecosystem.Platform
import RepoGraph.Index
import RepoGraph.Target
/-!
# Looking up references

The side that a reference comes from, and the steps that the rules of all languages share.
-/
namespace RepoGraph

/-- The file that a reference stands in, and how it was written. -/
structure Importer where
  index : RepoIndex
  file : String
  language : Language
  kind : ReferenceKind

namespace RepoIndex

/-- The paths that a path without extension may mean: itself, itself with an extension, or a
directory with a file of one of some names in it. -/
def candidates (path : String) (suffixes indexNames : List String) : List String :=
  let beside := if path.isEmpty then [] else path :: suffixes.map (path ++ ·)
  beside ++
    indexNames.flatMap fun name => suffixes.map fun suffix => Path.join path (name ++ suffix)

def probe? (index : RepoIndex) (path : String) (suffixes indexNames : List String) :
    Option String :=
  (candidates path suffixes indexNames).find? index.contains

end RepoIndex

/-- The initial parts of a list, longest first, down to `shortest` elements. -/
def initialParts (shortest : Nat) (parts : List α) : List (List α) :=
  (List.range (parts.length + 1 - shortest)).map fun i => parts.take (parts.length - i)

namespace Importer

def dir (importer : Importer) : String := Path.parent importer.file

/-- A module of the repository; it has the language of the file or namespace of that name, or else
that of the importing file. -/
def internal (importer : Importer) (id : String) : Target :=
  .internal id (((importer.index.language? id).or (importer.index.namespaceLanguage? id)).getD
    importer.language)

def external? (importer : Importer) (token : String) : Option Target :=
  let ecosystem := Ecosystem.ofReference importer.language token
  let package := ecosystem.packageRoot token
  if package.isEmpty then none else some (.external ecosystem package importer.language)

/-- The path that a relative path means, seen from the file; one with a slash in front is seen from
the root. -/
def relativePath? (importer : Importer) (token : String) : Option String :=
  Path.normalize? (if token.toList.head? = some '/' then token else Path.join importer.dir token)

/-- The module that a relative path means: a file that `probe` finds, or else the path itself. A
path above the root means nothing. -/
def relative? (importer : Importer) (token : String) (probe : String → Option String) :
    Option Target := do
  let path ← importer.relativePath? token
  match probe path with
  | some file => some (importer.internal file)
  | none => if path.isEmpty then none else some (importer.internal path)

def searchFrom? (dirs : List String) (token : String) (probe : String → Option String) :
    Option String :=
  dirs.findSome? fun dir => (Path.normalize? (Path.join dir token)).bind probe

def namespaceOf? (importer : Importer) (separator : String) (parts : List String) :
    Option String :=
  ((initialParts 1 parts).map (String.intercalate separator)).find? importer.index.hasNamespace

end Importer

end RepoGraph
