import RepoGraph.Glob.Pattern
/-!
# Matching globs

A pattern is matched against the UTF-8 bytes of a path from left to right. After each part, `marks`
tells for every position of the path, from its start to its end, whether the parts so far can end
there.
-/
namespace RepoGraph

namespace GlobMarks

def step (p : UInt8 → Bool) (path : List UInt8) (marks : List Bool) : List Bool :=
  false :: List.zipWith (fun byte mark => mark && p byte) path marks

/-- The positions that are reached from a marked one by bytes of which `p` holds; `reached` tells
whether the position before is. -/
def spreadFrom (p : UInt8 → Bool) (reached : Bool) : List UInt8 → List Bool → List Bool
  | byte :: path, mark :: marks =>
    let here := mark || (reached && p byte)
    here :: spreadFrom p here path marks
  | _, _ => []

/-- The marked positions and those reached from them by bytes of which `p` holds. -/
def spread (p : UInt8 → Bool) (path : List UInt8) (marks : List Bool) : List Bool :=
  match marks with
  | [] => []
  | first :: marks => first :: spreadFrom p first path marks

def union (a b : List Bool) : List Bool := List.zipWith (· || ·) a b

def start (path : List UInt8) : List Bool := true :: path.map fun _ => false

end GlobMarks

namespace GlobToken
open GlobMarks

/-- The bytes of a range of characters: from the last byte of the first one to the first byte of the
last one, and the other bytes of both. -/
def rangeBytes (range : Char × Char) : List (UInt8 × UInt8) :=
  let low := range.1.toString.toUTF8.toList
  let high := range.2.toString.toUTF8.toList
  if range.1 = range.2 then low.map fun b => (b, b)
  else
    low.dropLast.map (fun b => (b, b)) ++ [(low.getLast?.getD 0, high.head?.getD 0)] ++
      high.tail.map fun b => (b, b)

def inSpans (negated : Bool) (spans : List (UInt8 × UInt8)) (byte : UInt8) : Bool :=
  negated != spans.any fun (low, high) => low ≤ byte && byte ≤ high

def inClass (negated : Bool) (ranges : List (Char × Char)) : UInt8 → Bool :=
  let spans := ranges.flatMap rangeBytes
  inSpans negated spans

def isSlash (byte : UInt8) : Bool := byte == 0x2F

/-- Whether a byte may stand for `?` and in the place of `*`. -/
def isFree (rules : GlobRules) (byte : UInt8) : Bool := !rules.keepsSlashes || !isSlash byte

mutual

/-- Whether a part stands for nothing at all: a choice between nothing. -/
def isVoid : GlobToken → Bool
  | choice branches => areVoid branches
  | _ => false

def isVoidBranch : List GlobToken → Bool
  | [] => true
  | token :: rest => token.isVoid && isVoidBranch rest

def areVoid : List (List GlobToken) → Bool
  | [] => true
  | branch :: rest => isVoidBranch branch && areVoid rest

end

mutual

/-- The positions at which a part can end that starts at a marked one. A branch of a choice that
stands for nothing at all does not count beside others. -/
def advance (rules : GlobRules) (path : List UInt8) (marks : List Bool) : GlobToken → List Bool
  | literal c =>
    c.toString.toUTF8.toList.foldl (fun marks byte => step (· == byte) path marks) marks
  | anyOne => step (isFree rules) path marks
  | anyRun => spread (isFree rules) path marks
  | leadingDirs => union marks (step isSlash path (spread (fun _ => true) path marks))
  | trailingDirs => spread (fun _ => true) path (step isSlash path marks)
  | innerDirs =>
    let after := step isSlash path marks
    union after (step isSlash path (spread (fun _ => true) path after))
  | oneOf negated ranges => step (inClass negated ranges) path marks
  | choice branches =>
    if areVoid branches then marks else advanceAny rules path marks branches

def advanceAll (rules : GlobRules) (path : List UInt8) (marks : List Bool) :
    List GlobToken → List Bool
  | [] => marks
  | token :: rest => advanceAll rules path (advance rules path marks token) rest

def advanceAny (rules : GlobRules) (path : List UInt8) (marks : List Bool) :
    List (List GlobToken) → List Bool
  | [] => marks.map fun _ => false
  | branch :: rest =>
    let others := advanceAny rules path marks rest
    if isVoidBranch branch then others
    else union (advanceAll rules path marks branch) others

end

end GlobToken

/-- Whether a pattern matches a whole path. -/
def Glob.isMatch (glob : Glob) (path : String) : Bool :=
  match glob.tokens with
  | [.leadingDirs] => true
  | tokens =>
    let bytes := path.toUTF8.toList
    ((GlobToken.advanceAll glob.rules bytes (GlobMarks.start bytes) tokens).getLast?).getD false

end RepoGraph
