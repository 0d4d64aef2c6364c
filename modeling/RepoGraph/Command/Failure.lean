import RepoGraph.Analysis
import RepoGraph.Settings.Loader
/-!
# Failures

Why a command fails, as it is told: a message, what caused it, what caused that, and so on.
-/
namespace RepoGraph

/-- A message and its causes, nearest first. -/
structure Failure where
  message : String
  causes : List String := []
  deriving DecidableEq, Repr

namespace Failure

def inside (message : String) (failure : Failure) : Failure :=
  ⟨message, failure.message :: failure.causes⟩

def ofFile (error : FileError) : Failure := ⟨error.message, []⟩

def ofSettings (error : SettingsError) : Failure :=
  { message := error.message
    causes := match error with
      | .unreadable _ error | .notWritten _ error | .noDirectory _ error => [error.message]
      | .malformed _ => ["TOML parse error"]
      | .unwritable | .noHome | .outOfRange _ => [] }

def padded (width n : Nat) : String :=
  String.ofList (List.replicate (width - (Nat.toDigits 10 n).length) ' ' ++ Nat.toDigits 10 n)

def indent (mark text : String) : String :=
  let margin := String.ofList (List.replicate mark.length ' ')
  mark ++ ("\n" ++ margin).intercalate (Text.pieces '\n' text)

/-- The causes, one below the other; several are numbered from zero. -/
def renderCauses : List String → String
  | [] => ""
  | [cause] => "\n\nCaused by:\n" ++ indent "    " cause
  | causes => "\n\nCaused by:\n" ++ "\n".intercalate
    (causes.zipIdx.map fun (cause, i) => indent (padded 5 i ++ ": ") cause)

def render (failure : Failure) : String :=
  "Error: " ++ failure.message ++ renderCauses failure.causes

end Failure

end RepoGraph
