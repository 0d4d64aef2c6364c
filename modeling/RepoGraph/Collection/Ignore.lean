import RepoGraph.FileStore.Basic
import RepoGraph.Glob.Limits
/-!
# Ignore files

A rule stands on a line of its own and speaks of the places below the directory of its file. Of the
rules in one file the last that matches decides, of several files of one name the nearest, and files
of one name go before all files of the next.
-/
namespace RepoGraph
open Text

inductive IgnoreVerdict where
  | ignored | kept
  deriving DecidableEq, Repr

structure IgnoreRule where
  glob : Glob
  verdict : IgnoreVerdict
  directoriesOnly : Bool

namespace IgnoreRule

/-- In ignore files wildcards stop at slashes, and a bracket that is never closed stands for
itself. -/
def globRules : GlobRules := { keepsSlashes := true, allowsOpenClass := true }

/-- The verdict of a line, whether it is tied to the directory of its file by a slash at the start,
and its pattern. A backslash before the sign of a verdict or a comment takes the sign as it is. -/
def readSign : List Char → IgnoreVerdict × Bool × List Char
  | '\\' :: '!' :: s => (.ignored, false, '!' :: s)
  | '\\' :: '#' :: s => (.ignored, false, '#' :: s)
  | '!' :: '/' :: s => (.kept, true, s)
  | '!' :: s => (.kept, false, s)
  | '/' :: s => (.ignored, true, s)
  | s => (.ignored, false, s)

/-- Whether a pattern speaks of directories alone, which a slash at its end says, and the pattern
without that slash. -/
def readEnd (pattern : List Char) : Bool × List Char :=
  match stripEnd? ['/'] pattern with
  | some rest => (true, (stripEnd? ['\\'] rest).getD rest)
  | none => (false, pattern)

/-- A pattern that matches in every directory. -/
def inAnyDirectory (pattern : List Char) : List Char :=
  if pattern = ['*', '*'] ∨ startsWith ['*', '*', '/'] pattern then pattern
  else '*' :: '*' :: '/' :: pattern

/-- A pattern that matches what is in a directory, but not the directory itself. -/
def belowDirectory (pattern : List Char) : List Char :=
  if endsWith ['/', '*', '*'] pattern then pattern ++ ['/', '*'] else pattern

/-- A line without the blanks at its end, unless the last one is a space after a backslash. -/
def cutLine (line : List Char) : List Char :=
  if endsWith ['\\', ' '] line then line else cutBlanks line

/-- The rule of a line; none for comments, blank lines and what is no pattern. -/
def parse? (line : List Char) : Option IgnoreRule :=
  let line := cutLine line
  if line.isEmpty || startsWith ['#'] line then none
  else
    let (verdict, tied, rest) := readSign line
    let (directoriesOnly, pattern) := readEnd rest
    let pattern := if tied || pattern.contains '/' then pattern else inAnyDirectory pattern
    match Glob.parse globRules (String.ofList (belowDirectory pattern)) with
    | .ok glob => some { glob, verdict, directoriesOnly }
    | .error _ => none

def lastVerdict? (rules : List IgnoreRule) (path : String) (isDirectory : Bool) :
    Option IgnoreVerdict :=
  rules.reverse.findSome? fun rule =>
    if (!rule.directoriesOnly || isDirectory) && rule.glob.isMatch path then some rule.verdict
    else none

def textLines (content : ByteArray) : List (List Char) :=
  let characters := Text.decodeFrom [] content.toList
  let text := (characters.takeWhile Option.isSome).filterMap id
  if text.length = characters.length then lines text
  else (splitOn '\n' text).dropLast.map cutReturn

/-- The rules of an ignore file, none if their patterns cannot be used together. A byte order mark
before the first line is passed over. -/
def parseFile (content : ByteArray) : List IgnoreRule :=
  match textLines content with
  | first :: rest =>
    let rules := (first.dropWhile (· = '\uFEFF') :: rest).filterMap parse?
    if Glob.areUsable (rules.map (·.glob)) then rules else []
  | [] => []

end IgnoreRule

inductive IgnoreSource where
  | tool | general | git | gitExclude
  deriving DecidableEq, Repr, Hashable

namespace IgnoreSource

def all : List IgnoreSource := [tool, general, git, gitExclude]

def path : IgnoreSource → String
  | tool => ".archgraphignore"
  | general => ".ignore"
  | git => ".gitignore"
  | gitExclude => ".git/info/exclude"

def ofPlace? : Place → Option (IgnoreSource × Place)
  | ".archgraphignore" :: directory => some (tool, directory)
  | ".ignore" :: directory => some (general, directory)
  | ".gitignore" :: directory => some (git, directory)
  | "exclude" :: "info" :: ".git" :: directory => some (gitExclude, directory)
  | _ => none

end IgnoreSource

namespace GitLink

/-- The first line of a file; none of an empty file and of a line that is no text. -/
def firstLine? (content : ByteArray) : Option String :=
  let line := content.toList.takeWhile (· != 0x0A)
  let isTerminated := line.length < content.size
  if content.isEmpty then none
  else (Text.decode? line).map fun text =>
    String.ofList (if isTerminated then cutReturn text else text)

def directory? (content : ByteArray) : Option String := do
  let line ← firstLine? content
  let path ← stripStart? "gitdir: ".toList line.toList
  return String.ofList path

def commonFile? (content : ByteArray) : Option String :=
  (directory? content).map (DiskPath.join · "commondir")

/-- The path of the exclude file in the common directory. Only a path that starts with a dot starts
from the directory that the `.git` file names. -/
def excludeFile? (store : FileStore) (content : ByteArray) : Option String := do
  let directory ← directory? content
  let common ← firstLine? (← (store.read (← commonFile? content)).toOption)
  let shared := if startsWith ['.'] common.toList then DiskPath.join directory common else common
  return DiskPath.join shared "info/exclude"

def rules? (store : FileStore) (content : ByteArray) : Option (List IgnoreRule) := do
  let excluded ← (store.read (← excludeFile? store content)).toOption
  return IgnoreRule.parseFile excluded

end GitLink

structure IgnoreTable where
  rules : Std.HashMap (IgnoreSource × Place) (List IgnoreRule)
  /-- The rules for all directories, which go after all others. -/
  everywhere : List IgnoreRule
  /-- The directory from which the paths for those rules start. -/
  here : Place

namespace IgnoreTable

def verdict? (table : IgnoreTable) (place : Place) (isDirectory : Bool) : Option IgnoreVerdict :=
  let found := IgnoreSource.all.findSome? fun source =>
    (Place.outward place.tail).findSome? fun directory =>
      (table.rules[(source, directory)]?).bind fun rules =>
        IgnoreRule.lastVerdict? rules (place.pathFrom directory) isDirectory
  found.or (IgnoreRule.lastVerdict? table.everywhere (place.pathAfter table.here) isDirectory)

end IgnoreTable

/-- The directories of the user, and the settings files of git that are named for a run. -/
structure UserDirectories where
  home : Option String := none
  settings : Option String := none
  gitSettings : Option String := none
  gitFallback : Option String := none
  deriving DecidableEq, Repr

namespace GitSettings

def isSpace (c : Char) : Bool := c = ' ' || (9 ≤ c.toNat && c.toNat ≤ 13)

def blankToEnd (s : List Char) : Bool :=
  (s.takeWhile isSpace).contains '\n' || (s.dropWhile isSpace).isEmpty

def endsValue (s : List Char) : Bool :=
  blankToEnd s ||
    match s.dropWhile isSpace with
    | '"' :: rest => blankToEnd rest
    | _ => false

/-- The shortest value at the start of a text; `seen` holds its characters so far, last first. -/
def valueFrom? (seen : List Char) : List Char → Option (List Char)
  | [] => none
  | c :: s =>
    if isSpace c then none
    else if endsValue s then some (c :: seen).reverse
    else valueFrom? (c :: seen) s

def value? (s : List Char) : Option (List Char) :=
  let quoted := match s with
    | '"' :: rest => valueFrom? [] (rest.dropWhile isSpace)
    | _ => none
  quoted.or (valueFrom? [] s)

def word? (word : String) (s : List Char) : Option (List Char) :=
  let count := word.toList.length
  if (s.take count).map Char.toLower == word.toList then some (s.drop count) else none

def excludesFileAt? (s : List Char) : Option (List Char) :=
  match word? "excludesfile" s with
  | some rest =>
    match rest.dropWhile isSpace with
    | '=' :: rest => value? (rest.dropWhile isSpace)
    | _ => none
  | none => none

def findExcludesFile? (fresh : Bool) : List Char → Option (List Char)
  | [] => none
  | c :: s =>
    if isSpace c then findExcludesFile? (fresh || c = '\n') s
    else (if fresh then excludesFileAt? (c :: s) else none).or (findExcludesFile? false s)

/-- The path of the ignore file for all directories that the settings name, if it is text. The
settings are read byte by byte. A tilde in the path stands for the home directory. -/
def excludesFile? (home : Option String) (content : ByteArray) : Option String := do
  let value ← findExcludesFile? true (content.toList.map fun byte => Char.ofNat byte.toNat)
  let path ← Text.decode? (value.map fun c => UInt8.ofNat c.toNat)
  return String.ofList (path.flatMap fun c => if c = '~' then (home.getD "~").toList else [c])

end GitSettings

namespace UserDirectories

def settingsDirectory? (user : UserDirectories) : Option String :=
  user.settings.or (user.home.map (DiskPath.join · ".config"))

def gitSettingsFiles (user : UserDirectories) : List String :=
  user.gitSettings.toList ++ (user.home.map (DiskPath.join · ".gitconfig")).toList ++
    (user.settingsDirectory?.map (DiskPath.join · "git/config")).toList ++ user.gitFallback.toList

/-- The path of the ignore file for all directories: the one that the first settings file with the
setting names, or the usual one. -/
def ignoreFile? (user : UserDirectories) (store : FileStore) : Option String :=
  (user.gitSettingsFiles.findSome? fun path =>
    ((store.read path).toOption).bind (GitSettings.excludesFile? user.home)).or
      (user.settingsDirectory?.map (DiskPath.join · "git/ignore"))

end UserDirectories

def FileStore.ignoreTable (store : FileStore) (user : UserDirectories) : IgnoreTable where
  rules := Std.HashMap.ofList (store.files.filterMap fun (place, content) =>
    match place with
    | ".git" :: directory =>
      (GitLink.rules? store content).map fun rules => ((.gitExclude, directory), rules)
    | _ => (IgnoreSource.ofPlace? place).map (·, IgnoreRule.parseFile content))
  everywhere := match (user.ignoreFile? store).bind fun path => (store.read path).toOption with
    | some content => IgnoreRule.parseFile content
    | none => []
  here := store.here

end RepoGraph
