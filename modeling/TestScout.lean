import TestScout.ArtifactName
import TestScout.PositionQuery
import TestScout.TagSet
import TestScout.Constraint.Printer
import TestScout.FileName
import TestScout.Header.Scan
import TestScout.FileTree.Listing
import TestScout.SourceText
import TestScout.Overlay.Payload
import TestScout.Json.Basic
import TestScout.BuildEnv.Resolve
import TestScout.BuildEnv.Difference
import TestScout.Package
import TestScout.ProjectRoot
import TestScout.GoSource.Scan
import TestScout.GoSource.Grammar
import TestScout.GoSource.Declaration
import TestScout.FunctionLookup
import TestScout.Discovery
import TestScout.Answers
import TestScout.Number.Binary64
import TestScout.Toml.Document
import TestScout.Settings.Init
import TestScout.TestCommand
import TestScout.BuildFlags
import TestScout.Shell.Run
import TestScout.TestRun
import TestScout.Executable
import TestScout.CommandLine.Reader
import TestScout.Program
import TestScout.Main
import TestScout.Proofs.BuildEnv.Resolution
import TestScout.Proofs.BuildEnv.Coverage
import TestScout.Proofs.FileTree.Walk
import TestScout.Proofs.Package.Reading
import TestScout.Proofs.Discovery.Parallel
import TestScout.Proofs.Constraint.Offsets
import TestScout.Proofs.Constraint.Regrouping
import TestScout.Proofs.Header.Reference
import TestScout.Proofs.Discovery.SameSources
import TestScout.Proofs.Overlay.Saving
import TestScout.Proofs.Header.Imports
import TestScout.Proofs.Package.Partition
import TestScout.Proofs.BuildEnv.Variables
import TestScout.Proofs.GoSource.DeclaredLines
import TestScout.Proofs.Discovery.NewFile
import TestScout.Proofs.BuildEnv.Cheapest
import TestScout.Proofs.BuildEnv.NeededChanges
import TestScout.Proofs.Overlay.Aliases
import TestScout.Proofs.Settings.Tags
import TestScout.Proofs.Constraint.NormalForm
import TestScout.Proofs.ArtifactName
import TestScout.Proofs.Header.OlderLines
import TestScout.Proofs.GoSource.Outermost
import TestScout.Proofs.GoSource.LookupOutcomes
import TestScout.Proofs.GoSource.TrailingComments
import TestScout.Proofs.GoSource.DocNormalForm
import TestScout.Proofs.PositionQuery
import TestScout.Proofs.Path.NormalForm
import TestScout.Proofs.BuildEnv.Difference
import TestScout.Proofs.ProjectRoot
import TestScout.Proofs.BuildEnv.Unmentioned
import TestScout.Proofs.BuildEnv.Experiments
import TestScout.Proofs.TagSet.Histories
import TestScout.Proofs.Overlay.Store
import TestScout.Proofs.FileName
import TestScout.Proofs.GoSource.Rows
import TestScout.Proofs.GoSource.Places
