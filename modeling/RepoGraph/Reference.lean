import RepoGraph.Ecosystem
import RepoGraph.Text.Name
/-!
# References

What an import detector reports: the module or path that a line of a source file refers to, as it
was written.
-/
namespace RepoGraph

inductive ReferenceKind where
  | imports | requires | includes | uses
  deriving DecidableEq, Repr, Inhabited

namespace ReferenceKind

def all : List ReferenceKind := [imports, requires, includes, uses]

def name : ReferenceKind → String
  | imports => "import"
  | requires => "require"
  | includes => "include"
  | uses => "use"

end ReferenceKind

structure SourceFile where
  path : String
  language : Language
  content : String
  deriving DecidableEq, Repr

structure Hit where
  line : Nat
  token : String
  kind : ReferenceKind
  deriving DecidableEq, Repr

structure Reference where
  fromFile : String
  token : String
  kind : ReferenceKind
  line : Nat
  deriving DecidableEq, Repr

end RepoGraph
