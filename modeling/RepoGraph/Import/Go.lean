import RepoGraph.Reference
/-!
# Imports of Go

`import "x"`, `import alias "x"`, and the specs of a block `import ( … )`, one on each line.
-/
namespace RepoGraph.Import.Go
open Text

def pathLiteral? : List Char → Option (List Char × List Char)
  | '"' :: s =>
    match s.takeWhile (· != '"'), s.dropWhile (· != '"') with
    | c :: path, _ :: rest => some (c :: path, rest)
    | _, _ => none
  | _ => none

theorem length_pathLiteral? {s rest path : List Char} (h : pathLiteral? s = some (path, rest)) :
    rest.length < s.length := by
  unfold pathLiteral? at h
  split at h
  · rename_i s
    split at h
    · have := length_dropWhile_le (· != '"') s
      grind
    · simp at h
  · simp at h

/-- The path of an import spec: an alias, if any, and a path literal. -/
def spec? (s : List Char) : Option (List Char) :=
  let inAlias := fun c => isWordChar c || c == '.'
  let path := match s.takeWhile inAlias with
    | [] => some s
    | _ => blanks? (s.dropWhile inAlias)
  (path.bind pathLiteral?).map (·.1)

def blockStart? (code : List Char) : Option (List Char) :=
  (stripStart? "import".toList (skipBlanks code)).bind fun rest =>
    stripStart? ['('] (skipBlanks rest)

def readDeclaration (code : List Char) : Bool × List (List Char) :=
  match blockStart? code with
  | some rest =>
    let inside := rest.takeWhile (· != ')')
    (!rest.contains ')', findAll (fun _ => pathLiteral?) length_pathLiteral? none inside)
  | none =>
    (false, (((keyword? "import".toList (skipBlanks code))).bind spec?).toList)

def readLine (opened : Bool) (code : List Char) : Bool × List (List Char × ReferenceKind) :=
  let (opened, paths) :=
    if opened then
      let s := skipBlanks code
      if s.head? = some ')' then (false, []) else (true, (spec? s).toList)
    else readDeclaration code
  (opened, paths.map (·, .imports))

end RepoGraph.Import.Go
