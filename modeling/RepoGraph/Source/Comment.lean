import RepoGraph.Text.Split
/-!
# Comments

The code of a line, which is what is left of it without comments. Only what an earlier line left
open is remembered from line to line: a block comment or a docstring.
-/
namespace RepoGraph
open Text

inductive CommentStyle where
  /-- `//` and `/* */`. -/
  | slash
  /-- `//`, `/* */`, and lines that start with `#` but not with `#[`. -/
  | slashAndHash
  /-- `#`, and the lines from `=begin` to `=end`. -/
  | hash
  /-- `#`, and docstrings between triple quotes. -/
  | hashAndDocstring
  deriving DecidableEq, Repr

/-- What a line may leave open for the next. -/
inductive CommentState where
  /-- Nothing: the next line starts with code. -/
  | code
  | block
  /-- A docstring opened by three of this quote. -/
  | docstring (quote : Char)
  deriving DecidableEq, Repr, Inhabited

namespace CommentState

/-- The text before the first marker that starts the line or stands after a blank or a semicolon.
`before` is the character before the position and `done` what is kept so far, last first. -/
def cutMarkerFrom (marker : List Char) (before : Option Char) (done : List Char) :
    Nat → List Char → List Char
  | _, [] => done.reverse
  | skip + 1, c :: s => cutMarkerFrom marker (some c) (c :: done) skip s
  | 0, c :: s =>
    if startsWith marker (c :: s) then
      if before.all fun b => isBlank b || b == ';' then done.reverse
      else cutMarkerFrom marker (some c) (c :: done) (marker.length - 1) s
    else cutMarkerFrom marker (some c) (c :: done) 0 s

/-- The line without its comment. A marker opens one where it starts the line or stands after a
blank or a semicolon, so that `https://` and `"#{x}"` survive. -/
def cutMarker (marker line : List Char) : List Char := cutMarkerFrom marker none [] 0 line

/-- The code of a line that starts outside block comments, and what it leaves open. Of a block that
closes on its line, the code before it stays, or the code after it if there is none before. -/
def openBlock (line : List Char) : CommentState × List Char :=
  match cut? ['/', '*'] line with
  | none => (code, line)
  | some (before, inside) =>
    match cut? ['*', '/'] inside with
    | some (_, after) => (code, if allBlank before then after else before)
    | none => (block, before)

def readSlash : CommentState → List Char → CommentState × List Char
  | code, line => (openBlock line).map id (cutMarker ['/', '/'])
  | state, line =>
    match cut? ['*', '/'] line with
    | some (_, after) => (openBlock after).map id (cutMarker ['/', '/'])
    | none => (state, [])

def dropHashLine (line : List Char) : List Char :=
  match skipBlanks line with
  | '#' :: '[' :: _ => line
  | '#' :: _ => []
  | _ => line

def readHash : CommentState → List Char → CommentState × List Char
  | code, line =>
    if startsWith "=begin".toList line then (block, []) else (code, cutMarker ['#'] line)
  | state, line => (if startsWith "=end".toList line then code else state, [])

def openDocstring (line : List Char) : CommentState × List Char :=
  let opened (quote : Char) : Option (CommentState × List Char) :=
    let delimiter := [quote, quote, quote]
    if occurrences delimiter line % 2 = 1 then
      (cut? delimiter line).map fun (before, _) => (docstring quote, before)
    else none
  ((opened '"').or (opened '\'')).getD (code, line)

def readDocstring : CommentState → List Char → CommentState × List Char
  | docstring quote, line =>
    match cut? [quote, quote, quote] line with
    | some (_, after) => (openDocstring after).map id (cutMarker ['#'])
    | none => (docstring quote, [])
  | _, line => (openDocstring line).map id (cutMarker ['#'])

def readLine (style : CommentStyle) (state : CommentState) (line : List Char) :
    CommentState × List Char :=
  match style with
  | .slash => readSlash state line
  | .slashAndHash => (readSlash state line).map id dropHashLine
  | .hash => readHash state line
  | .hashAndDocstring => readDocstring state line

end CommentState

structure CodeLine where
  number : Nat
  code : List Char
  deriving DecidableEq, Repr

structure CodeReading where
  state : CommentState := .code
  count : Nat := 0
  found : Array CodeLine := #[]

/-- Reads one more line; it is a code line unless its code is blank. -/
def CodeReading.next (style : CommentStyle) (reading : CodeReading) (line : List Char) :
    CodeReading :=
  let (state, code) := reading.state.readLine style line
  { state
    count := reading.count + 1
    found := if allBlank code then reading.found
      else reading.found.push ⟨reading.count + 1, code⟩ }

/-- The lines of a text with code on them, without their comments. -/
def codeLines (style : CommentStyle) (content : List Char) : List CodeLine :=
  ((lines content).foldl (CodeReading.next style) {}).found.toList

end RepoGraph
