import RepoGraph.Manifest.Basic
import RepoGraph.Text.Name
/-!
# Declarations line by line

The manifests that are read line by line: requirement files, `go.mod` and `Gemfile`.
-/
namespace RepoGraph.Manifest
open Text

def anyVersion : String := "*"

def skipBrackets (s : List Char) : List Char :=
  match s with
  | '[' :: inside =>
    match inside.dropWhile (· != ']') with
    | [] => s
    | _ :: rest => rest
  | _ => s

def demanded (s : List Char) : String :=
  match s with
  | [] => anyVersion
  | c :: _ =>
    if ['<', '>', '=', '!', '~'].contains c then
      let version := trim (s.takeWhile fun d => d != ';' && d != '#')
      if version.isEmpty then anyVersion else String.ofList version
    else anyVersion

/-- The name and version of a requirement such as `requests[socks]>=2.31 ; python_version>'3'`. -/
def requirement? (s : List Char) : Option (String × String) :=
  match skipBlanks s with
  | [] => none
  | c :: s =>
    if isAsciiLetter c || isAsciiDigit c then
      let inName := fun d =>
        isAsciiLetter d || isAsciiDigit d || d == '.' || d == '_' || d == '-'
      let rest := skipBlanks (skipBrackets (skipBlanks (s.dropWhile inName)))
      some (String.ofList (c :: s.takeWhile inName), demanded rest)
    else none

def requirementLine? (line : List Char) : Option (String × String) :=
  match trim line with
  | [] => none
  | '#' :: _ => none
  | '-' :: _ => none
  | line => requirement? line

def requirementLines (content : List Char) : List (String × String) :=
  (lines content).filterMap requirementLine?

inductive GoStatement where
  | module (path : String)
  | requires (module version : String)
  deriving DecidableEq, Repr

def goRequirement? (line : List Char) : Option GoStatement :=
  match words line with
  | module :: version :: _ => some (.requires (String.ofList module) (String.ofList version))
  | _ => none

def goCode (line : List Char) : List Char :=
  trim (match cut? ['/', '/'] line with
    | some (code, _) => code
    | none => line)

def unquote (s : List Char) : List Char := cutEndWhile (· == '"') (s.dropWhile (· == '"'))

def readGoLine (inList : Bool) (line : List Char) : Bool × Option GoStatement :=
  match goCode line with
  | [] => (inList, none)
  | code =>
    if inList then
      if code.head? = some ')' then (false, none) else (true, goRequirement? code)
    else
      match stripStart? "module ".toList code with
      | some path => (false, some (.module (String.ofList (unquote (trim path)))))
      | none =>
        match (stripStart? "require".toList code).map trim with
        | some ('(' :: _) => (true, none)
        | some rest => (false, goRequirement? rest)
        | none => (false, none)

def goStatements (inList : Bool) : List (List Char) → List GoStatement
  | [] => []
  | line :: rest =>
    let (inList, statement) := readGoLine inList line
    statement.toList ++ goStatements inList rest

/-- Adds what a statement of a `go.mod` declares; of several module lines the last counts. -/
def addGoStatement (manifest : Manifest) : GoStatement → Manifest
  | .module path => { manifest with name := some path, modulePath := some path }
  | .requires module version => manifest.declare module version

def gemVersion? (s : List Char) : Option (List Char) := do
  let s ← stripStart? [','] (skipBlanks s)
  let (version, _) ← quoted? (skipBlanks s)
  some version

def gemLine? (line : List Char) : Option (String × String) := do
  let s ← keyword? "gem".toList (skipBlanks line)
  let (name, s) ← quoted? s
  some (String.ofList name, ((gemVersion? s).map String.ofList).getD anyVersion)

def gemLines (content : List Char) : List (String × String) := (lines content).filterMap gemLine?

end RepoGraph.Manifest
