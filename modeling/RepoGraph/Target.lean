import RepoGraph.Ecosystem
/-!
# Targets

What a reference points at.
-/
namespace RepoGraph

/-- What a reference points at: a module of the repository or a package outside it. -/
inductive Target where
  /-- A file, a directory or a declared package or namespace, by its path or name. -/
  | internal (id : String) (language : Language)
  /-- A package, imported by a file of a language. -/
  | external (ecosystem : Ecosystem) (package : String) (language : Language)
  deriving DecidableEq, Repr

def Ecosystem.packageId (ecosystem : Ecosystem) (package : String) : String :=
  ecosystem.name ++ ":" ++ package

/-- The id of the node that stands for a target. -/
def Target.nodeId : Target → String
  | internal id _ => id
  | external ecosystem package _ => ecosystem.packageId package

end RepoGraph
