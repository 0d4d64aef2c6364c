import RepoGraph.Resolve.Lookup
/-!
# References by path

The rules of the languages that import files by path: JavaScript and TypeScript, PHP includes, Ruby,
C and C++.
-/
namespace RepoGraph.Importer
open Text

/-- The extensions of emitted files; a source may import the emitted file of another source. -/
def emittedExtensions : List String := [".js", ".jsx", ".mjs", ".cjs"]

/-- The file that a path means: with an extension added, as a directory with an index file, or as an
emitted file. -/
def scriptFile? (index : RepoIndex) (path : String) : Option String :=
  let probe? := fun path => index.probe? path Language.javaScript.sourceSuffixes ["index"]
  let source := Path.stripExtension path emittedExtensions
  (probe? path).or (if source = path then none else probe? source)

def withoutQuery (token : String) : String :=
  String.ofList (token.toList.takeWhile fun c => c != '?' && c != '#')

def afterAlias? (token : String) : Option String :=
  (["@/", "~/"].findSome? fun start => stripStart? start.toList token.toList).map String.ofList

/-- The file that an aliased path means, in `src` or at the root. -/
def aliased? (index : RepoIndex) (token : String) : Option String :=
  (afterAlias? token).bind fun path =>
    ["src", ""].findSome? fun root => scriptFile? index (Path.join root path)

def withoutScheme (token : String) : String :=
  ((stripStart? "node:".toList token.toList).map String.ofList).getD token

/-- What a JavaScript or TypeScript import means: a path relative to the file, an aliased path, a
path from the root, or a package. -/
def script? (importer : Importer) (token : String) : Option Target :=
  let token := withoutQuery token
  let first := token.toList.head?
  if first = some '.' ∨ first = some '/' then importer.relative? token (scriptFile? importer.index)
  else
    match (aliased? importer.index token).or
      ((Path.normalize? token).bind (scriptFile? importer.index)) with
    | some file => some (importer.internal file)
    | none => importer.external? (withoutScheme token)

def isDotted (token : String) : Bool :=
  startsWith "./".toList token.toList || startsWith "../".toList token.toList

/-- What a PHP include means: a path relative to the file or from the root, or a package. -/
def phpInclude? (importer : Importer) (token : String) : Option Target :=
  let probe? := fun path => importer.index.probe? path Language.php.sourceSuffixes []
  if isDotted token || token.toList.head? == some '/' then importer.relative? token probe?
  else
    match searchFrom? [importer.dir, ""] token probe? with
    | some file => some (importer.internal file)
    | none => importer.external? token

/-- What a Ruby `require` means: a path relative to the file, from the root or in `lib`, or a
gem. -/
def ruby? (importer : Importer) (token : String) : Option Target :=
  let probe? := fun path => importer.index.probe? path Language.ruby.sourceSuffixes []
  if isDotted token then importer.relative? token probe?
  else
    match searchFrom? [importer.dir, "", "lib"] token probe? with
    | some file => some (importer.internal file)
    | none => importer.external? token

def bracketed? (token : String) : Option String :=
  ((stripStart? ['<'] token.toList).bind (stripEnd? ['>'])).map String.ofList

/-- The file that a quoted header means: seen from the file, from the root, or anywhere. -/
def header? (importer : Importer) (token : String) : Option String :=
  (searchFrom? [importer.dir, ""] token fun path =>
      if importer.index.contains path then some path else none).or
    (importer.index.findBySuffix? (String.ofList (Path.skipHere token.toList)))

/-- What a C or C++ include means: a file of the repository, a path relative to the file, or a
system header. -/
def cFamily? (importer : Importer) (token : String) : Option Target :=
  match bracketed? token with
  | some header =>
    match importer.index.findBySuffix? header with
    | some file => some (importer.internal file)
    | none => importer.external? header
  | none =>
    match importer.header? token with
    | some file => some (importer.internal file)
    | none =>
      if token.toList.head? = some '.' then importer.relative? token fun _ => none
      else importer.external? token

end RepoGraph.Importer
