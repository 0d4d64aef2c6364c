import RepoGraph.Resolve.Modules
import RepoGraph.Resolve.Names
import RepoGraph.Resolve.Paths
/-!
# Resolving references

A reference points at a module of the repository or at a package outside it, by the rule of the
language that it was written in. It is dropped if it is blank, leads above the root of the
repository, or points back at its own file.
-/
namespace RepoGraph

def Importer.target? (importer : Importer) (token : String) : Option Target :=
  match importer.language with
  | .python => importer.python? token
  | .javaScript | .typeScript => importer.script? token
  | .go => importer.go? token
  | .java | .kotlin => importer.jvm? token
  | .cSharp => importer.cSharp? token
  | .php => if importer.kind = .uses then importer.phpUse? token else importer.phpInclude? token
  | .ruby => importer.ruby? token
  | .rust => importer.rust? token
  | .c | .cpp => importer.cFamily? token

namespace RepoIndex

/-- The language of an importing file: the indexed one, or else what its path tells. -/
def importingLanguage? (index : RepoIndex) (file : String) : Option Language :=
  (index.language? file).or (Language.ofPath? file)

def isElsewhere (file : String) : Target → Bool
  | .internal id _ => id != file && !id.isEmpty
  | .external .. => true

/-- What a reference points at, or none if it is dropped. -/
def resolve? (index : RepoIndex) (reference : Reference) : Option Target := do
  let token := String.ofList (Text.trim reference.token.toList)
  if token.isEmpty then none
  let language ← index.importingLanguage? reference.fromFile
  let importer : Importer := ⟨index, reference.fromFile, language, reference.kind⟩
  (importer.target? token).filter (isElsewhere reference.fromFile)

end RepoIndex

end RepoGraph
