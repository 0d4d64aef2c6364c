import RepoGraph.Glob.Match
/-!
# Limits on patterns

Patterns that are used together are carried out by one automaton over bytes. Patterns whose parts
are nested too deep, or whose automaton takes too much memory, cannot be used, and no others beside
them. Patterns that only compare texts need no automaton.
-/
namespace RepoGraph

namespace GlobToken

def isLiteral : GlobToken → Bool
  | literal _ => true
  | _ => false

def inExtension : GlobToken → Bool
  | literal c => c != '.' && c != '/'
  | _ => false

mutual

/-- How many elements a part adds to its sequence, and how many levels the deepest of them has. A
class is a level, and one more if it lists several bytes or ranges; so are a repetition, a choice
and each of its sequences of several elements. -/
def extent (rules : GlobRules) : GlobToken → Nat × Nat
  | literal c => (c.utf8Size, 0)
  | anyOne => (1, if rules.keepsSlashes then 1 else 0)
  | anyRun => (1, if rules.keepsSlashes then 2 else 1)
  | leadingDirs => (1, 4)
  | trailingDirs => (2, 1)
  | innerDirs => (1, 4)
  | oneOf _ ranges => (1, if (ranges.flatMap rangeBytes).length = 1 then 1 else 2)
  | choice branches =>
    match branchesExtent rules 0 0 branches with
    | (0, _) => (0, 0)
    | (1, levels) => (1, levels + 1)
    | (_, levels) => (1, levels + 2)

/-- The number of elements of a sequence, and its levels; `count` and `deepest` are those of the
parts already passed. -/
def sequenceExtent (rules : GlobRules) (count deepest : Nat) : List GlobToken → Nat × Nat
  | [] => (count, if count ≤ 1 then deepest else deepest + 1)
  | token :: rest =>
    let (more, levels) := extent rules token
    sequenceExtent rules (count + more) (max deepest levels) rest

/-- The number of the branches of a choice that stand for something, and the levels of the deepest;
`count` and `deepest` are those of the branches already passed. -/
def branchesExtent (rules : GlobRules) (count deepest : Nat) :
    List (List GlobToken) → Nat × Nat
  | [] => (count, deepest)
  | branch :: rest =>
    match sequenceExtent rules 0 0 branch with
    | (0, _) => branchesExtent rules count deepest rest
    | (_, levels) => branchesExtent rules (count + 1) (max deepest levels) rest

end

def stateMemory : Nat := 32

def transitionMemory : Nat := 8

def branchMemory : Nat := 4

def countBytes (p : UInt8 → Bool) : Nat × Nat :=
  let (bytes, runs, _) := (List.range 256).foldl (fun (bytes, runs, inRun) n =>
    if p (UInt8.ofNat n) then (bytes + 1, if inRun then runs else runs + 1, true)
    else (bytes, runs, false)) (0, 0, false)
  (bytes, runs)

def setMemory (p : UInt8 → Bool) : Nat :=
  match countBytes p with
  | (1, _) => stateMemory
  | (_, runs) => 2 * stateMemory + runs * transitionMemory

/-- The memory for a byte that may stand for `?`: any byte, or any but a slash. -/
def freeMemory (rules : GlobRules) : Nat :=
  2 * stateMemory + (if rules.keepsSlashes then 2 else 1) * transitionMemory

def repeatMemory (inner : Nat) : Nat := stateMemory + 2 * branchMemory + inner

def choiceMemory (count inner : Nat) : Nat := 2 * stateMemory + count * branchMemory + inner

def directoriesMemory : Nat := repeatMemory (freeMemory {}) + stateMemory

mutual

def byteSet? (rules : GlobRules) : GlobToken → Option (UInt8 → Bool)
  | literal c => if c.toNat < 0x80 then some fun byte => byte.toNat = c.toNat else none
  | anyOne => some (isFree rules)
  | oneOf negated ranges =>
    let spans := ranges.flatMap rangeBytes
    some (inSpans negated spans)
  | choice branches => branchesByteSet? rules branches
  | _ => none

def branchByteSet? (rules : GlobRules) : List GlobToken → Option (UInt8 → Bool)
  | [token] => byteSet? rules token
  | _ => none

def branchesByteSet? (rules : GlobRules) : List (List GlobToken) → Option (UInt8 → Bool)
  | [] => some fun _ => false
  | [] :: rest => branchesByteSet? rules rest
  | branch :: rest =>
    match branchByteSet? rules branch, branchesByteSet? rules rest with
    | some p, some q => some fun byte => p byte || q byte
    | _, _ => none

end

mutual

def memory (rules : GlobRules) : GlobToken → Nat
  | literal c => c.utf8Size * stateMemory
  | anyOne => freeMemory rules
  | anyRun => repeatMemory (freeMemory rules)
  | leadingDirs => choiceMemory 2 (choiceMemory 2 stateMemory + directoriesMemory)
  | trailingDirs => stateMemory + repeatMemory (freeMemory {})
  | innerDirs => choiceMemory 2 (2 * stateMemory + directoriesMemory)
  | oneOf negated ranges =>
    let spans := ranges.flatMap rangeBytes
    setMemory (inSpans negated spans)
  | choice branches =>
    match branchesMemory rules 0 0 branches, branchesByteSet? rules branches with
    | (0, _), _ => 0
    | (1, inner), _ => inner
    | (_, _), some p => setMemory p
    | (count, inner), none => choiceMemory count inner

def sequenceMemory (rules : GlobRules) (sum : Nat) : List GlobToken → Nat
  | [] => sum
  | token :: rest => sequenceMemory rules (sum + memory rules token) rest

/-- The number of the branches of a choice that stand for something, and the memory for them in sum;
`count` and `sum` are those of the branches already passed. The branches of a choice that is a
branch itself count as branches of the outer choice. -/
def branchesMemory (rules : GlobRules) (count sum : Nat) : List (List GlobToken) → Nat × Nat
  | [] => (count, sum)
  | [choice branches] :: rest =>
    match branchesMemory rules 0 0 branches, branchesByteSet? rules branches with
    | (0, _), _ => branchesMemory rules count sum rest
    | (1, inner), _ => branchesMemory rules (count + 1) (sum + inner) rest
    | (_, _), some p => branchesMemory rules (count + 1) (sum + setMemory p) rest
    | (more, inner), none => branchesMemory rules (count + more) (sum + inner) rest
  | branch :: rest =>
    match sequenceMemory rules 0 branch with
    | 0 => branchesMemory rules count sum rest
    | inner => branchesMemory rules (count + 1) (sum + inner) rest

end

end GlobToken

namespace Glob
open GlobToken

def levelLimit : Nat := 250

def memoryLimit : Nat := 10 * 1024 * 1024

def levels (glob : Glob) : Nat := (sequenceExtent glob.rules 2 0 glob.tokens).2

def memory (glob : Glob) : Nat := sequenceMemory glob.rules (5 * stateMemory) glob.tokens

def automatonMemory (globs : List Glob) : Nat :=
  let sum := globs.foldl (fun sum glob => sum + glob.memory) stateMemory
  if globs.length ≤ 1 then sum else choiceMemory globs.length sum

def keepsLimits (globs : List Glob) : Bool :=
  (globs.all fun glob => glob.levels ≤ levelLimit) && automatonMemory globs ≤ memoryLimit

/-- Whether a pattern only compares texts: with the whole path, its start, its end or its last
name. -/
def comparesTexts (glob : Glob) : Bool :=
  match glob.tokens with
  | .leadingDirs :: .anyRun :: rest =>
    if glob.rules.keepsSlashes then
      match rest with
      | .literal '.' :: rest => rest.all inExtension
      | _ => false
    else !rest.isEmpty && rest.all isLiteral
  | .leadingDirs :: rest => !rest.isEmpty && rest.all isLiteral
  | .anyRun :: rest => !glob.rules.keepsSlashes && !rest.isEmpty && rest.all isLiteral
  | tokens =>
    match tokens.dropWhile isLiteral with
    | [] => !tokens.isEmpty
    | [.anyRun] => !glob.rules.keepsSlashes
    | [.trailingDirs] => true
    | _ => false

/-- Whether a pattern ends with an extension. Such a pattern has an automaton of its own. -/
def endsWithExtension (glob : Glob) : Bool :=
  match glob.tokens.reverse.dropWhile inExtension with
  | .literal '.' :: _ => true
  | _ => false

/-- Whether patterns can be used together. -/
def areUsable (globs : List Glob) : Bool :=
  let (alone, shared) := (globs.filter (!·.comparesTexts)).partition endsWithExtension
  alone.all (fun glob => keepsLimits [glob]) && keepsLimits shared

end Glob

end RepoGraph
