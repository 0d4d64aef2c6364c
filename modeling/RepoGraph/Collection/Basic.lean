import RepoGraph.Collection.Tree
import RepoGraph.Glob.Limits
import RepoGraph.Manifest.Reader
import RepoGraph.Reference
import Std.Data.HashSet
/-!
# Collecting source files

Which files of a tree are analysed: the paths are sorted, those in excluded directories and under
excluded patterns and those that are no sources are left out, and the rest is sampled directory by
directory and cut off at a number of files.
-/
namespace RepoGraph
open Text

def defaultExcludedDirs : List String :=
  [".git", ".hg", ".svn", "node_modules", "bower_components", "vendor", "third_party", "dist",
    "build", "out", "target", "__pycache__", ".venv", "venv", ".tox", ".mypy_cache",
    ".pytest_cache", "bin", "obj", ".next", ".nuxt", ".gradle", "coverage", ".idea", ".vscode"]

def binaryExtensions : List String :=
  ["png", "jpg", "jpeg", "gif", "bmp", "ico", "webp", "tiff", "pdf", "zip", "gz", "tgz", "bz2",
    "xz", "7z", "tar", "jar", "war", "class", "so", "dll", "dylib", "exe", "o", "a", "lib", "pyc",
    "pyo", "wasm", "woff", "woff2", "ttf", "otf", "eot", "mp3", "mp4", "mov", "avi", "wav", "bin",
    "dat", "db", "sqlite"]

structure CollectionRules where
  maxFiles : UInt64 := 3000
  maxFilesPerDir : Option UInt64 := some 20
  /-- The patterns of paths that are left out; what is no pattern leaves out nothing. -/
  excludePatterns : List String := []
  excludeDirs : List String := defaultExcludedDirs
  maxFileSize : UInt64 := 1024 * 1024
  /-- The number of files that are read at the same time; it changes no result. -/
  fetchConcurrency : Option UInt64 := none
  deriving DecidableEq, Repr, Inhabited

/-- A listed path with slashes for backslashes and without the `./` at its start. -/
def cleanPath (path : String) : String :=
  String.ofList (Path.skipHere (path.toList.map fun c => if c == '\\' then '/' else c))

def cleanPaths (listing : List String) : List String :=
  (listing.map cleanPath).mergeSort.eraseReps

namespace CollectionRules

/-- The patterns of the rules, none if they cannot be used together. -/
def globs (rules : CollectionRules) : List Glob :=
  let parsed := rules.excludePatterns.filterMap fun pattern => (Glob.parse {} pattern).toOption
  if Glob.areUsable parsed then parsed else []

def excludes (rules : CollectionRules) (globs : List Glob) (path : String) : Bool :=
  (Path.segments path).dropLast.any rules.excludeDirs.contains || globs.any (·.isMatch path)

end CollectionRules

def hasBinaryExtension (name : String) : Bool :=
  match cutLast? '.' name.toList with
  | some (_, ext) => binaryExtensions.contains (String.ofList (lower ext))
  | none => false

def isManifestPath (path : String) : Bool := (ManifestKind.ofFileName? (Path.fileName path)).isSome

/-- Whether a path may name a source: its extension tells a language, or its name has no dot. -/
def mayBeSource (path : String) : Bool :=
  let name := Path.fileName path
  !isManifestPath path && !hasBinaryExtension name && !endsWith ".min.js".toList name.toList &&
    ((Language.ofPath? path).isSome || !name.toList.contains '.')

/-- The language of a path that may name a source; without an extension the first line tells it. -/
def RepoTree.language? (tree : RepoTree) (path : String) : Option Language :=
  (Language.ofPath? path).or
    (match tree.firstLine path with
      | .ok line => Language.ofShebang? line
      | .error _ => none)

/-- The first `cap` paths of each directory; `counts` holds how many were taken before. -/
def sampleFrom (cap : Nat) (counts : Std.HashMap String Nat) :
    List (String × Language) → List (String × Language)
  | [] => []
  | candidate :: rest =>
    let dir := Path.parent candidate.1
    let count := counts.getD dir 0
    if count < cap then candidate :: sampleFrom cap (counts.insert dir (count + 1)) rest
    else sampleFrom cap counts rest

namespace CollectionRules

def select (rules : CollectionRules) (candidates : List (String × Language)) :
    List (String × Language) :=
  (match rules.maxFilesPerDir with
    | some cap => sampleFrom cap.toNat {} candidates
    | none => candidates).take rules.maxFiles.toNat

end CollectionRules

def sniffLength : Nat := 8192

/-- The text of a file that is neither too large nor binary. -/
def RepoTree.text (tree : RepoTree) (limit : Nat) (path : String) : Except FetchError String :=
  match (tree.size? path).filter (limit < ·) with
  | some size => .error (.tooLarge path size limit)
  | none => do
    let bytes ← tree.fetch path
    if limit < bytes.size then throw (.tooLarge path bytes.size limit)
    let content := bytes.toList
    if (content.take sniffLength).contains 0 then throw (.binary path)
    return String.ofList (decodeLossy content)

structure Collection where
  files : List SourceFile
  manifests : List Manifest
  listed : Nat
  /-- The number of files that were chosen and could not be read. -/
  skipped : Nat
  deriving DecidableEq, Repr

/-- Collects the sources and manifests of a tree. -/
def RepoTree.collect (tree : RepoTree) (rules : CollectionRules) :
    Except CollectionError Collection := do
  let paths := cleanPaths (← tree.listing)
  let globs := rules.globs
  let limit := rules.maxFileSize.toNat
  let admitted := paths.filter fun path => !rules.excludes globs path
  let candidates := (admitted.filter mayBeSource).filterMap fun path =>
    (tree.language? path).map (path, ·)
  let selected := rules.select candidates
  let files := selected.filterMap fun (path, language) =>
    ((tree.text limit path).toOption).map fun content => (⟨path, language, content⟩ : SourceFile)
  let manifests := (admitted.filter isManifestPath).filterMap fun path =>
    ((tree.text limit path).toOption).bind fun content => (Manifest.parse path content).toOption
  if files.isEmpty then throw (.noSupportedSource paths.length)
  return { files, manifests, listed := paths.length, skipped := selected.length - files.length }

end RepoGraph
