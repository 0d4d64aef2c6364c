import RepoGraph.Resolve.Lookup
/-!
# References by qualified name

The rules of the languages that import names: Python, Java and Kotlin, C# and the `use` of PHP.
-/
namespace RepoGraph.Importer
open Text

def climb? : Nat → String → Option String
  | 0, dir => some dir
  | levels + 1, dir => if dir.isEmpty then none else climb? levels (Path.parent dir)

def pythonFile? (index : RepoIndex) (path : String) : Option String :=
  index.probe? path Language.python.sourceSuffixes ["__init__"]

/-- What a relative Python import means: each dot after the first goes up one directory. -/
def relativePython? (importer : Importer) (token : String) : Option Target := do
  let dots := (token.toList.takeWhile (· == '.')).length
  let dir ← climb? (dots - 1) importer.dir
  let rest := (token.toList.dropWhile (· == '.')).map fun c => if c == '.' then '/' else c
  let path := Path.join dir (String.ofList rest)
  match pythonFile? importer.index path with
  | some file => some (importer.internal file)
  | none => if path.isEmpty then none else some (importer.internal path)

/-- The directories that modules are looked for in: that of the file and those above it, and
`src`. -/
def pythonRoots (dir : String) : List String :=
  let roots := Path.ancestors dir
  if roots.contains "src" then roots else roots ++ ["src"]

/-- The file of the longest initial part of a dotted name, in the first directory that has one. -/
def absolutePython? (importer : Importer) (token : String) : Option String :=
  (pythonRoots importer.dir).findSome? fun root =>
    (initialParts 1 (pieces '.' token)).findSome? fun part =>
      pythonFile? importer.index (Path.join root (String.intercalate "/" part))

def python? (importer : Importer) (token : String) : Option Target :=
  if token.toList.head? = some '.' then importer.relativePython? token
  else
    match importer.absolutePython? token with
    | some file => some (importer.internal file)
    | none => importer.external? token

def withoutStar (token : String) : String :=
  ((stripEnd? ".*".toList token.toList).map String.ofList).getD token

/-- The file of a class: of the longest initial part of the name, which has two segments or more
unless the name has one. -/
def classFile? (index : RepoIndex) (parts : List String) : Option String :=
  (initialParts (if parts.length > 1 then 2 else 1) parts).findSome? fun part =>
    Language.java.sourceSuffixes.findSome? fun suffix =>
      index.findBySuffix? (String.intercalate "/" part ++ suffix)

/-- What a Java or Kotlin import means: a class file, a declared package, or one outside. -/
def jvm? (importer : Importer) (token : String) : Option Target :=
  let name := withoutStar token
  let parts := pieces '.' name
  match (classFile? importer.index parts).or (importer.namespaceOf? "." parts) with
  | some id => some (importer.internal id)
  | none => importer.external? name

def cSharp? (importer : Importer) (token : String) : Option Target :=
  match importer.namespaceOf? "." (pieces '.' token) with
  | some id => some (importer.internal id)
  | none => importer.external? token

/-- The file of a class: the first that ends in the name, or in the name without segments at its
start; two segments stay unless the name has one. -/
def phpClassFile? (index : RepoIndex) (parts : List String) : Option String :=
  (List.range (parts.length - min parts.length 2 + 1)).findSome? fun skipped =>
    index.findBySuffix? (String.intercalate "/" (parts.drop skipped) ++ ".php")

/-- What a PHP `use` means: a class file, a declared namespace, or one outside. -/
def phpUse? (importer : Importer) (token : String) : Option Target :=
  let name := String.ofList (token.toList.dropWhile (· == '\\'))
  let parts := (pieces '\\' name).filter (· ≠ "")
  if parts.isEmpty then none
  else
    match (phpClassFile? importer.index parts).or (importer.namespaceOf? "\\" parts) with
    | some id => some (importer.internal id)
    | none => importer.external? name

end RepoGraph.Importer
