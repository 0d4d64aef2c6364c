import RepoGraph.Main
import RepoGraph.Proofs.Analysis.Independence
import RepoGraph.Proofs.Analysis.LanguageView
import RepoGraph.Proofs.Graph.Commutation
import RepoGraph.Proofs.Import.GoLayout
import RepoGraph.Proofs.Import.ListLayout
import RepoGraph.Proofs.Resolve.Ambiguity
import RepoGraph.Proofs.Resolve.NormalIds
import RepoGraph.Proofs.Settings.Layers
import RepoGraph.Proofs.Settings.Options
import RepoGraph.Proofs.Source.BlockComment
import RepoGraph.Proofs.Source.LineEndings
import RepoGraph.Proofs.View.EdgeBounds
import RepoGraph.Proofs.View.Roundtrip
import RepoGraph.Proofs.View.Restriction
import RepoGraph.Proofs.Resolve.RelativePaths
import RepoGraph.Proofs.Resolve.LargerIndex
import RepoGraph.Proofs.Resolve.Backing
import RepoGraph.Proofs.Resolve.RustPaths
import RepoGraph.Proofs.Resolve.QualifiedNames
import RepoGraph.Proofs.Resolve.PythonModules
import RepoGraph.Proofs.Index.SuffixSearch
import RepoGraph.Proofs.Resolve.GoVersions
import RepoGraph.Proofs.Collection.FileCap
import RepoGraph.Proofs.Graph.Accounts
import RepoGraph.Proofs.Graph.Packages
import RepoGraph.Proofs.Graph.DroppedReferences
import RepoGraph.Proofs.Path.Climbing
import RepoGraph.Proofs.Manifest.FirstDeclaration
import RepoGraph.Proofs.Manifest.GoModLayout
