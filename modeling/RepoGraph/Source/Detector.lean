import RepoGraph.Source.Comment
import RepoGraph.Import.Python
import RepoGraph.Import.JavaScript
import RepoGraph.Import.Go
import RepoGraph.Import.Jvm
import RepoGraph.Import.CSharp
import RepoGraph.Import.Php
import RepoGraph.Import.Ruby
import RepoGraph.Import.Rust
import RepoGraph.Import.CFamily
/-!
# Import detectors

A detector reads a file line by line and reports what the lines refer to. Between two lines it
remembers only a `ScanState`; once that is clear, what follows does not depend on what came before.
-/
namespace RepoGraph
open Text

/-- The detectors, one for each module system. -/
inductive Detector where
  | python | javaScript | go | jvm | cSharp | php | ruby | rust | cFamily
  deriving DecidableEq, Repr

/-- What a detector remembers from one line to the next. -/
structure ScanState where
  comment : CommentState := .code
  inImport : Bool := false
  deriving DecidableEq, Repr, Inhabited

def ScanState.clear : ScanState := {}

structure ScanReading where
  state : ScanState := .clear
  count : Nat := 0
  hits : Array Hit := #[]

namespace Detector

def ofLanguage : Language → Detector
  | .python => python
  | .javaScript | .typeScript => javaScript
  | .go => go
  | .java | .kotlin => jvm
  | .cSharp => cSharp
  | .php => php
  | .ruby => ruby
  | .rust => rust
  | .c | .cpp => cFamily

def commentStyle : Detector → CommentStyle
  | python => .hashAndDocstring
  | php => .slashAndHash
  | ruby => .hash
  | javaScript | go | jvm | cSharp | rust | cFamily => .slash

def readCode (detector : Detector) (inImport : Bool) (code : List Char) :
    Bool × List (List Char × ReferenceKind) :=
  match detector with
  | python => (inImport, Import.Python.readLine code)
  | javaScript => Import.JavaScript.readLine inImport code
  | go => Import.Go.readLine inImport code
  | jvm => (inImport, Import.Jvm.readLine code)
  | cSharp => (inImport, Import.CSharp.readLine code)
  | php => (inImport, Import.Php.readLine code)
  | ruby => (inImport, Import.Ruby.readLine code)
  | rust => (inImport, Import.Rust.readLine code)
  | cFamily => (inImport, Import.CFamily.readLine code)

/-- The references of a line, and the state after it. A line without code leaves an open import
open. -/
def readLine (detector : Detector) (state : ScanState) (line : List Char) :
    ScanState × List (List Char × ReferenceKind) :=
  let (comment, code) := state.comment.readLine detector.commentStyle line
  if allBlank code then (⟨comment, state.inImport⟩, [])
  else
    let (inImport, found) := detector.readCode state.inImport code
    (⟨comment, inImport⟩, found)

def next (detector : Detector) (reading : ScanReading) (line : List Char) : ScanReading :=
  let (state, found) := detector.readLine reading.state line
  let number := reading.count + 1
  { state
    count := number
    hits := reading.hits ++
      (found.map fun (token, kind) => (⟨number, String.ofList token, kind⟩ : Hit)) }

def read (detector : Detector) (content : List Char) : ScanReading :=
  (lines content).foldl detector.next {}

def scan (detector : Detector) (content : String) : List Hit :=
  (detector.read content.toList).hits.toList

end Detector

/-- The references of a file: the hits whose token is not blank. -/
def SourceFile.references (file : SourceFile) : List Reference :=
  (((Detector.ofLanguage file.language).scan file.content).filter fun hit =>
    !allBlank hit.token.toList).map fun hit => ⟨file.path, hit.token, hit.kind, hit.line⟩

end RepoGraph
