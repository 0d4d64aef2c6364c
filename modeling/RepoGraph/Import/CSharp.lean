import RepoGraph.Reference
/-!
# Imports of C#

`using A.B;`, `using static A.B;`, `global using A.B;` and aliases, whose token is the namespace
that gets the alias.
-/
namespace RepoGraph.Import.CSharp
open Text

def target? (s : List Char) : Option (List Char) := do
  let (name, rest) ← nameWith? (· == '.') s
  match skipBlanks rest with
  | c :: _ => if c == ';' || c == '<' then some name else none
  | [] => none

def aliased? (s : List Char) : Option (List Char) :=
  let named := do
    let (_, rest) ← name? s
    let rest ← stripStart? ['='] (skipBlanks rest)
    target? (skipBlanks rest)
  named.or (target? s)

def using? (code : List Char) : Option (List Char) := do
  let s := skipBlanks code
  let rest ← keyword? "using".toList ((keyword? "global".toList s).getD s)
  ((keyword? "static".toList rest).bind aliased?).or (aliased? rest)

def namespace? (code : List Char) : Option (List Char) := do
  let rest ← keyword? "namespace".toList (skipBlanks code)
  let (name, _) ← nameWith? (· == '.') rest
  some name

def readLine (code : List Char) : List (List Char × ReferenceKind) :=
  (using? code).toList.map (·, .uses)

end RepoGraph.Import.CSharp
