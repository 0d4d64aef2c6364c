import RepoGraph.Text.Split
/-!
# Remote repositories

A repository that is named by its owner and its own name.
-/
namespace RepoGraph
open Text

structure RemoteRepository where
  owner : String
  name : String
  deriving DecidableEq, Repr

namespace RemoteRepository

def isOwner (s : List Char) : Bool :=
  s.all (fun c => c.isAlphanum || c == '-') && !s.isEmpty && s.head? != some '-' &&
    s.getLast? != some '-'

def isName (s : List Char) : Bool :=
  s.all (fun c => c.isAlphanum || c == '.' || c == '_' || c == '-') && !s.isEmpty

/-- A name without the `.git` at its end, unless that is all of it. -/
def cutSuffix (s : List Char) : List Char :=
  match stripEnd? ".git".toList s with
  | some (c :: stem) => c :: stem
  | _ => s

/-- The repository that a text names: owner and name with a slash between them. -/
def parse? (text : String) : Option RemoteRepository :=
  match cut? ['/'] text.toList with
  | some (owner, name) =>
    if isOwner owner && isName name then
      some ⟨String.ofList owner, String.ofList (cutSuffix name)⟩
    else none
  | none => none

def cloneUrl (remote : RemoteRepository) : String :=
  "https://github.com/" ++ remote.owner ++ "/" ++ remote.name ++ ".git"

end RemoteRepository

end RepoGraph
