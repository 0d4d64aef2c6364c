import RepoGraph.Reference
/-!
# Imports of Python

`import a, b.c as d`, `from x.y import z` and `from . import m`; the last names sibling modules.
-/
namespace RepoGraph.Import.Python
open Text

/-- Whether a word names a module: dotted words that start with a letter or underscore. -/
def isModuleName (name : List Char) : Bool :=
  name.head?.any (fun c => isAlphabetic c || c == '_') &&
    name.all fun c => isAlphabetic c || isNumeric c || c == '_' || c == '.'

def listedNames (list : List Char) : List (List Char) :=
  let inner := cutEndWhile (fun c => c == '\\' || c == ')') ((trim list).dropWhile (· == '('))
  ((splitOn ',' inner).filterMap fun part => (words part).head?).filter isModuleName

def afterBlank? : List Char → Option (List Char)
  | c :: d :: s => if isBlank c then some (d :: s) else none
  | _ => none

def plainList? (statement : List Char) : Option (List Char) :=
  (stripStart? "import".toList (skipBlanks statement)).bind afterBlank?

def fromList? (statement : List Char) : Option (List Char × List Char) := do
  let rest ← keyword? "from".toList (skipBlanks statement)
  let inModule := fun c => isWordChar c || c == '.'
  let module := rest.takeWhile inModule
  let list ← (blanks? (rest.dropWhile inModule)).bind (stripStart? "import".toList)
  let list ← afterBlank? list
  match module, module.dropWhile (· == '.') with
  | [], _ => none
  | _, [] => some (module, list)
  | _, c :: _ => if isNameStart c then some (module, list) else none

def readStatement (statement : List Char) : List (List Char) :=
  match fromList? statement with
  | some (module, list) =>
    if module.all (· == '.') then
      match listedNames list with
      | [] => [module]
      | names => names.map (module ++ ·)
    else [module]
  | none => ((plainList? statement).map listedNames).getD []

def readLine (code : List Char) : List (List Char × ReferenceKind) :=
  ((splitOn ';' code).flatMap readStatement).map (·, .imports)

end RepoGraph.Import.Python
