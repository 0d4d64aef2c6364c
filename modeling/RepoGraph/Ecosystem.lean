import RepoGraph.Language
/-!
# Package ecosystems

The namespaces that references to code outside the repository land in, and the rule by which a
deep reference collapses to the package that is imported from.
-/
namespace RepoGraph

/-- Where an external package lives: a registry, or the library that comes with a platform. -/
inductive Ecosystem where
  | npm | pypi | pythonStdlib | go | goStdlib | maven | jdk | nuget | dotnet | composer | gem
  | crates | rustStd | system
  deriving DecidableEq, Repr, Inhabited

/-- How a deep reference collapses to its root package. -/
inductive RootRule where
  /-- The first `count` segments between separators. -/
  | segments (separator : String) (count : Nat)
  /-- Two segments for `@scope/name`, one otherwise. -/
  | scopedName
  /-- Three segments for a path that starts with a host name, one otherwise. -/
  | hostedModule
  deriving DecidableEq, Repr

namespace RootRule

/-- The first `count` nonempty pieces of a reference, with separators between them again. -/
def firstPieces (separator : List Char) (count : Nat) (token : List Char) : List Char :=
  Text.joinWith separator
    (((Text.splitOnText separator token).filter (!·.isEmpty)).take count)

def firstSegments (count : Nat) (token : List Char) : List Char :=
  Text.joinWith ['/'] ((Text.splitOn '/' token).take count)

/-- The root package of a reference. Where namespaces are joined by backslashes, a reference with
none but leading ones is a path and belongs to its first segment. -/
def collapse : RootRule → List Char → List Char
  | scopedName, token => firstSegments (if token.head? = some '@' then 2 else 1) token
  | hostedModule, token =>
    firstSegments (if (token.takeWhile (· != '/')).contains '.' then 3 else 1) token
  | segments separator count, token =>
    let inside := token.dropWhile (· == '\\')
    if separator = "\\" ∧ !inside.contains '\\' then inside.takeWhile (· != '/')
    else firstPieces separator.toList count token

end RootRule

namespace Ecosystem

def all : List Ecosystem :=
  [npm, pypi, pythonStdlib, go, goStdlib, maven, jdk, nuget, dotnet, composer, gem, crates,
    rustStd, system]

def name : Ecosystem → String
  | npm => "npm"
  | pypi => "pypi"
  | pythonStdlib => "stdlib"
  | go => "go"
  | goStdlib => "gostd"
  | maven => "maven"
  | jdk => "jdk"
  | nuget => "nuget"
  | dotnet => "dotnet"
  | composer => "composer"
  | gem => "gem"
  | crates => "crates"
  | rustStd => "rust-std"
  | system => "system"

def packageManager? : Ecosystem → Option String
  | npm => some "npm"
  | pypi => some "pip"
  | go => some "go"
  | maven => some "maven"
  | nuget => some "nuget"
  | composer => some "composer"
  | gem => some "bundler"
  | crates => some "cargo"
  | pythonStdlib | goStdlib | jdk | dotnet | rustStd | system => none

def rootRule : Ecosystem → RootRule
  | npm => .scopedName
  | pypi | pythonStdlib => .segments "." 1
  | go => .hostedModule
  | goStdlib | gem | system => .segments "/" 1
  | maven | jdk | nuget | dotnet => .segments "." 2
  | composer => .segments "\\" 2
  | crates | rustStd => .segments "::" 1

def language : Ecosystem → Language
  | npm => .javaScript
  | pypi | pythonStdlib => .python
  | go | goStdlib => .go
  | maven | jdk => .java
  | nuget | dotnet => .cSharp
  | composer => .php
  | gem => .ruby
  | crates | rustStd => .rust
  | system => .c

/-- The root package of a reference: `lodash/fp/map` belongs to `lodash` and `@scope/pkg/deep` to
`@scope/pkg`. -/
def packageRoot (ecosystem : Ecosystem) (token : String) : String :=
  String.ofList (ecosystem.rootRule.collapse (Text.trim token.toList))

end Ecosystem

/-- The ecosystems whose packages are shown beside the modules of a language. -/
def Language.companions (language : Language) : List Ecosystem :=
  match language.family with
  | .python => [.pypi, .pythonStdlib]
  | .javaScript => [.npm]
  | .go => [.go, .goStdlib]
  | .java => [.maven, .jdk]
  | .cSharp => [.nuget, .dotnet]
  | .php => [.composer]
  | .ruby => [.gem]
  | .rust => [.crates, .rustStd]
  | _ => [.system]

end RepoGraph
