import RepoGraph.Reference
/-!
# Imports of Ruby

`require 'x'` and `require_relative 'x'`, which is reported as `./x`.
-/
namespace RepoGraph.Import.Ruby
open Text

def path? (word code : List Char) : Option (List Char) := do
  let rest ← stripStart? word (skipBlanks code)
  let rest := skipBlanks rest
  let (path, _) ← quoted? (skipBlanks ((stripStart? ['('] rest).getD rest))
  some path

def relativeToken (path : List Char) : List Char :=
  if startsWith ['.', '/'] path || startsWith ['.', '.', '/'] path then path
  else '.' :: '/' :: path

def readLine (code : List Char) : List (List Char × ReferenceKind) :=
  let token := ((path? "require_relative".toList code).map relativeToken).or
    (path? "require".toList code)
  token.toList.map (·, .requires)

end RepoGraph.Import.Ruby
