import RepoGraph.Reference
/-!
# Includes of C and C++

`#include "x"` and `#include <x>`. The token of the second form keeps its brackets, which tell the
two apart.
-/
namespace RepoGraph.Import.CFamily
open Text

def include? (code : List Char) : Option (List Char) := do
  let rest ← stripStart? ['#'] (skipBlanks code)
  let rest := skipBlanks rest
  let rest ← (stripStart? "include".toList rest).or (stripStart? "import".toList rest)
  let isEnd := fun c => c == '>' || c == '"'
  match skipBlanks rest with
  | [] => none
  | mark :: inside =>
    match inside.takeWhile (!isEnd ·), inside.dropWhile (!isEnd ·) with
    | c :: path, _ :: _ =>
      if mark == '<' then some ('<' :: trim (c :: path) ++ ['>'])
      else if mark == '"' then some (trim (c :: path))
      else none
    | _, _ => none

def readLine (code : List Char) : List (List Char × ReferenceKind) :=
  (include? code).toList.map (·, .includes)

end RepoGraph.Import.CFamily
