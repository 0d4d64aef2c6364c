import RepoGraph.Ecosystem
import RepoGraph.Text.Lower
/-!
# Manifests

A manifest declares which versions of which packages a directory needs. Names are compared in a
normal form; of several declarations of one name the first counts.
-/
namespace RepoGraph
open Text

inductive ManifestKind where
  | packageJson | composerJson | cargoToml | pyprojectToml | requirements | goMod | gemfile
  deriving DecidableEq, Repr, Inhabited

namespace ManifestKind

def ofFileName? (name : String) : Option ManifestKind :=
  match name with
  | "package.json" => some packageJson
  | "composer.json" => some composerJson
  | "Cargo.toml" => some cargoToml
  | "pyproject.toml" => some pyprojectToml
  | "go.mod" => some goMod
  | "Gemfile" => some gemfile
  | _ =>
    if startsWith "requirements".toList name.toList && endsWith ".txt".toList name.toList then
      some requirements
    else none

def ecosystem : ManifestKind → Ecosystem
  | packageJson => .npm
  | composerJson => .composer
  | cargoToml => .crates
  | pyprojectToml | requirements => .pypi
  | goMod => .go
  | gemfile => .gem

end ManifestKind

/-- The normal form of a package name: in lower case, without leading backslashes, `/` for a
backslash, and `_` for a dash or a dot. -/
def normalizePackageName (name : String) : String :=
  let inside := (trim name.toList).dropWhile (· == '\\')
  String.ofList ((lower inside).map fun c =>
    if c == '\\' then '/' else if c == '-' || c == '.' then '_' else c)

/-- The form in which a manifest keeps a name. In the module paths of `go.mod`, dashes and dots
count. -/
def ManifestKind.key (kind : ManifestKind) (name : String) : String :=
  match kind with
  | goMod => String.ofList (lower (trim name.toList))
  | _ => normalizePackageName name

structure Manifest where
  path : String
  dir : String
  kind : ManifestKind
  name : Option String := none
  /-- The path that imports of the module of a `go.mod` start with. -/
  modulePath : Option String := none
  /-- The names in their kept form, with their versions, in the order of declaration. -/
  dependencies : List (String × String) := []
  deriving DecidableEq, Repr

namespace Manifest

def empty (path : String) (kind : ManifestKind) : Manifest :=
  { path, dir := Path.parent path, kind }

/-- Adds a declaration; an empty name and a name that is already declared change nothing. -/
def declare (manifest : Manifest) (name version : String) : Manifest :=
  let key := manifest.kind.key name
  if key.isEmpty || (manifest.dependencies.lookup key).isSome then manifest
  else { manifest with dependencies := manifest.dependencies ++ [(key, version)] }

def declareAll (manifest : Manifest) (declarations : List (String × String)) : Manifest :=
  declarations.foldl (fun manifest (name, version) => manifest.declare name version) manifest

def liesIn (module path : String) : Bool := startsWith (module.toList ++ ['/']) path.toList

def longer (a b : String × String) : String × String :=
  if a.1.utf8ByteSize < b.1.utf8ByteSize then b else a

def enclosing? (manifest : Manifest) (path : String) : Option (String × String) :=
  match manifest.dependencies.filter fun (module, _) => liesIn module path with
  | [] => none
  | first :: rest => some (rest.foldl longer first)

/-- The declared version of a package; of a package inside a Go module the version of the module. -/
def version? (manifest : Manifest) (package : String) : Option String :=
  let key := manifest.kind.key package
  (manifest.dependencies.lookup key).or
    (if manifest.kind = .goMod then (manifest.enclosing? key).map (·.2) else none)

end Manifest

end RepoGraph
