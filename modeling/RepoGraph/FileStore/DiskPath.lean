import RepoGraph.Path
/-!
# Paths on disk

Paths with slashes as they are written: absolute, or relative to the working directory. What a path
leads to depends on the file store; here it is only taken apart and joined.
-/
namespace RepoGraph.DiskPath
open Text

def isAbsolute (path : String) : Bool := startsWith ['/'] path.toList

def join (path more : String) : String :=
  if isAbsolute more then more
  else if path.isEmpty || endsWith ['/'] path.toList then path ++ more
  else path ++ "/" ++ more

/-- Segments without those at the end that lead nowhere; the first one stays. -/
def trimEnd : List String → List String
  | [] => []
  | first :: rest =>
    first :: (rest.reverse.dropWhile fun segment => segment = "" || segment = ".").reverse

def ofSegments (segments : List String) : String :=
  if segments = [""] then "/" else "/".intercalate segments

def parents (path : String) : List String :=
  let segments := trimEnd (Path.segments path)
  ((List.range segments.length).reverse.filterMap fun count =>
    if count = 0 then none else some (ofSegments (trimEnd (segments.take count)))).eraseReps

end RepoGraph.DiskPath
