import RepoGraph.Text.Split
/-!
# Repository paths

Paths inside a repository: segments joined by `/`, the repository root being the empty path.
Nothing here looks at a file system. `normalize?` gives the normal form, which has no empty, `.` or
`..` segment.
-/
namespace RepoGraph.Path
open Text

def segments (path : String) : List String := pieces '/' path

/-- The characters of a path before its last slash; none before the first segment. -/
def parentChars (path : List Char) : List Char :=
  match cutLast? '/' path with
  | some (dir, _) => dir
  | none => []

theorem length_parentChars_lt {path : List Char} (h : path ≠ []) :
    (parentChars path).length < path.length := by
  unfold parentChars
  split
  · exact length_cutLast? ‹_›
  · exact List.length_pos_iff.2 h

def parent (path : String) : String := String.ofList (parentChars path.toList)

def fileName (path : String) : String :=
  match cutLast? '/' path.toList with
  | some (_, name) => String.ofList name
  | none => path

/-- The file name without its last extension; a name that only starts with a dot has none. -/
def stem (path : String) : String :=
  let name := fileName path
  match cutLast? '.' name.toList with
  | some (c :: stem, _) => String.ofList (c :: stem)
  | _ => name

/-- A path below a directory; the root adds nothing and the empty path stays at the directory. -/
def join (dir path : String) : String :=
  if dir.isEmpty then path
  else if path.isEmpty then dir
  else dir ++ "/" ++ path

/-- Walks through segments; `above` holds the names entered so far, last first. -/
def walk : List String → List String → Option (List String)
  | above, [] => some above.reverse
  | above, segment :: rest =>
    if segment = "" ∨ segment = "." then walk above rest
    else if segment = ".." then
      match above with
      | [] => none
      | _ :: up => walk up rest
    else walk (segment :: above) rest

/-- The normal form of a path, or none if it climbs above the root. -/
def normalize? (path : String) : Option String :=
  (walk [] (segments path)).map (String.intercalate "/")

def ancestorChars (dir : List Char) : List (List Char) :=
  if h : dir = [] then [dir]
  else
    have := length_parentChars_lt h
    dir :: ancestorChars (parentChars dir)
termination_by dir.length

def ancestors (dir : String) : List String := (ancestorChars dir.toList).map String.ofList

def stripExtension (path : String) (extensions : List String) : String :=
  let found := extensions.findSome? fun ext =>
    if ext.isEmpty then none else stripEnd? ext.toList path.toList
  match found with
  | some stem => String.ofList stem
  | none => path

def skipHere : List Char → List Char
  | '.' :: '/' :: s => skipHere s
  | s => s

/-- The extension of the last name of a path: what follows the last dot after its first
character. A trailing slash and `.` segments are passed over; `..` has no extension. -/
def extension? (path : String) : Option String :=
  let names := (segments path).filter fun segment => segment ≠ "" && segment ≠ "."
  match names.getLast? with
  | none => none
  | some name =>
    if name = ".." then none
    else match cutLast? '.' name.toList with
      | some (_ :: _, ext) => some (String.ofList ext)
      | _ => none

end RepoGraph.Path
