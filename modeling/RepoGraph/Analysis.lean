import RepoGraph.Collection.Basic
import RepoGraph.Graph.Builder
import RepoGraph.Source.Detector
import RepoGraph.View.Basic
/-!
# Analysing a repository

From a tree to its graph, and from the graph to a view, within options that are checked first.
-/
namespace RepoGraph

structure AnalysisOptions where
  maxFiles : UInt64 := 3000
  filter : LanguageFilter := .all
  minWeight : UInt32 := 2
  nodeCap : UInt64 := 200
  maxEdges : UInt64 := 400
  maxFilesPerDir : Option UInt64 := some 20
  excludePatterns : List String := []
  fetchConcurrency : Option UInt64 := none
  maxFileSizeKb : UInt64 := 1024
  deriving DecidableEq, Repr, Inhabited

def maxFilesLimit : Nat := 10000

def minNodeCap : Nat := 20

inductive OptionError where
  | maxFiles (given : UInt64)
  | minWeight
  | nodeCap (given : UInt64)
  | maxEdges
  | maxFilesPerDir
  | fetchConcurrency
  | maxFileSize
  | excludePattern (error : GlobError)
  deriving DecidableEq, Repr

namespace OptionError

def name : OptionError → String
  | maxFiles _ => "max_files"
  | minWeight => "min_weight"
  | nodeCap _ => "node_cap"
  | maxEdges => "max_edges"
  | maxFilesPerDir => "max_files_per_dir"
  | fetchConcurrency => "fetch_concurrency"
  | maxFileSize => "max_file_size_kb"
  | excludePattern _ => "exclude_patterns"

def demand : OptionError → String
  | maxFiles given =>
    "must be between 1 and " ++ toString maxFilesLimit ++ ", got " ++ toString given.toNat
  | nodeCap given => "must be at least " ++ toString minNodeCap ++ ", got " ++ toString given.toNat
  | excludePattern error => error.message
  | minWeight | maxEdges | maxFilesPerDir | fetchConcurrency | maxFileSize => "must be at least 1"

def message (error : OptionError) : String :=
  "Invalid option " ++ error.name ++ ": " ++ error.demand

end OptionError

def firstGlobError? (patterns : List String) : Option GlobError :=
  patterns.findSome? fun pattern =>
    match Glob.parse {} pattern with
    | .ok _ => none
    | .error error => some error

namespace AnalysisOptions

/-- The first option that is out of range. -/
def error? (options : AnalysisOptions) : Option OptionError :=
  if options.maxFiles < 1 ∨ maxFilesLimit < options.maxFiles.toNat then
    some (.maxFiles options.maxFiles)
  else if options.minWeight < 1 then some .minWeight
  else if options.nodeCap.toNat < minNodeCap then some (.nodeCap options.nodeCap)
  else if options.maxEdges = 0 then some .maxEdges
  else if options.maxFilesPerDir = some 0 then some .maxFilesPerDir
  else if options.fetchConcurrency = some 0 then some .fetchConcurrency
  else if options.maxFileSizeKb = 0 then some .maxFileSize
  else (firstGlobError? options.excludePatterns).map .excludePattern

def bytesOfKb (kb : UInt64) : UInt64 := (min (kb.toNat * 1024) (UInt64.size - 1)).toUInt64

def collectionRules (options : AnalysisOptions) : CollectionRules where
  maxFiles := options.maxFiles
  maxFilesPerDir := options.maxFilesPerDir
  excludePatterns := options.excludePatterns
  maxFileSize := bytesOfKb options.maxFileSizeKb
  fetchConcurrency := options.fetchConcurrency

def viewLimits (options : AnalysisOptions) : ViewLimits where
  nodeCap := options.nodeCap
  minWeight := options.minWeight
  maxEdges := options.maxEdges

end AnalysisOptions

inductive AnalysisError where
  | option (error : OptionError)
  | collection (error : CollectionError)
  deriving DecidableEq, Repr

def AnalysisError.message : AnalysisError → String
  | option error => error.message
  | collection error => error.message

/-- The graph of what was collected. -/
def Collection.graph (collection : Collection) : Graph :=
  .build (.build collection.files collection.manifests) collection.files
    (collection.files.flatMap SourceFile.references)

namespace RepoTree

def graph (tree : RepoTree) (options : AnalysisOptions) : Except AnalysisError Graph :=
  match options.error? with
  | some error => .error (.option error)
  | none =>
    match tree.collect options.collectionRules with
    | .ok collection => .ok collection.graph
    | .error error => .error (.collection error)

/-- The view of a tree. -/
def view (tree : RepoTree) (options : AnalysisOptions) : Except AnalysisError GraphView :=
  (tree.graph options).map fun graph =>
    (GraphView.ofGraph graph options.viewLimits).restrict options.filter

end RepoTree

end RepoGraph
