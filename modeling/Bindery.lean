import Bindery.Bundle.Artifact
import Bindery.Bundle.Build
import Bindery.Bundle.Chunk
import Bindery.Bundle.ChunkText
import Bindery.Bundle.Error
import Bindery.Bundle.FileName
import Bindery.Bundle.HotUpdate
import Bindery.Bundle.Loader
import Bindery.Bundle.Manifest
import Bindery.Bundle.Output
import Bindery.Bundle.SizeHint
import Bindery.Bundle.Slot
import Bindery.Bundle.SourceMap
import Bindery.Bundle.Split
import Bindery.Bundle.Stage
import Bindery.Bundle.Transform
import Bindery.Bundle.Treatment
import Bindery.CommandLine.Arguments
import Bindery.CommandLine.Error
import Bindery.CommandLine.LogFilter
import Bindery.CommandLine.Measure
import Bindery.CommandLine.Report
import Bindery.CommandLine.Run
import Bindery.CommandLine.Terminal
import Bindery.CommandLine.Usage
import Bindery.Config.Document
import Bindery.Config.Environment
import Bindery.Config.Layer
import Bindery.Config.Record
import Bindery.Config.Toml
import Bindery.Digest.Blake3
import Bindery.Disk
import Bindery.Engine.Basic
import Bindery.Engine.Builtin
import Bindery.Engine.Command
import Bindery.FileTree
import Bindery.Graph.Basic
import Bindery.Graph.Build
import Bindery.Graph.Change
import Bindery.Graph.Error
import Bindery.Graph.Lookup
import Bindery.Inspect.Basic
import Bindery.Inspect.Bundle
import Bindery.Inspect.CommandLine
import Bindery.Inspect.Graph
import Bindery.Inspect.Profile
import Bindery.Inspect.Session
import Bindery.Json.Basic
import Bindery.Json.Parser
import Bindery.Json.Printer
import Bindery.Json.Quoted
import Bindery.Json.Skip
import Bindery.Main
import Bindery.Module.Basic
import Bindery.Module.Id
import Bindery.Module.IdSet
import Bindery.Module.Import
import Bindery.Number.Ratio
import Bindery.Number.Total
import Bindery.Path
import Bindery.Pattern.Basic
import Bindery.Pattern.Compiled
import Bindery.Pattern.Parser
import Bindery.Pattern.Search
import Bindery.Profile.Basic
import Bindery.Profile.Check
import Bindery.Profile.Defaults
import Bindery.Profile.Error
import Bindery.Profile.Layer
import Bindery.Profile.Mode
import Bindery.Profile.Rule
import Bindery.Program.Basic
import Bindery.Program.Filter
import Bindery.Program.Script
import Bindery.Program.Shell
import Bindery.Project
import Bindery.Scan.Imports
import Bindery.Scan.Matcher
import Bindery.Session.Basic
import Bindery.Session.Batch
import Bindery.Session.ErrorPage
import Bindery.Session.Update
import Bindery.Session.Watch
import Bindery.Text.Blank
import Bindery.Text.Escaped
import Bindery.Text.Hex
import Bindery.Text.Lines
import Bindery.Text.Replace
import Bindery.Text.Utf8
import Bindery.Text.Vlq
import Bindery.Unicode.CaseFold
import Bindery.Unicode.Property
import Bindery.Unicode.RangeSet
import Bindery.Unicode.Tables
import Bindery.Proofs.Bundle.SlotMap
import Bindery.Proofs.Bundle.Plan
import Bindery.Proofs.Bundle.Partition
import Bindery.Proofs.Bundle.EntryLoading
import Bindery.Proofs.Graph.Lookup
import Bindery.Proofs.Graph.Run
import Bindery.Proofs.Graph.Load
import Bindery.Proofs.Graph.Termination
import Bindery.Proofs.Graph.Outcome
import Bindery.Proofs.Graph.Rebuild
import Bindery.Proofs.Bundle.ChunkText
import Bindery.Proofs.Bundle.Linking
import Bindery.Proofs.Session.Run
import Bindery.Proofs.Session.Carry
import Bindery.Proofs.Disk
import Bindery.Proofs.Graph.Change
import Bindery.Proofs.Graph.Distance
import Bindery.Proofs.Graph.Reverse
import Bindery.Proofs.Graph.ChangeChain
import Bindery.Proofs.Bundle.Place
import Bindery.Proofs.Bundle.Output
import Bindery.Proofs.Bundle.Batch
import Bindery.Proofs.Session.Publication
import Bindery.Proofs.Bundle.Progress
import Bindery.Proofs.Bundle.Reach
import Bindery.Proofs.Bundle.Durable
import Bindery.Proofs.Bundle.FileName
import Bindery.Proofs.Bundle.Delivery
import Bindery.Proofs.Session.Served
import Bindery.Proofs.Bundle.Reuse
import Bindery.Proofs.Graph.Naming
import Bindery.Proofs.Graph.Entries
import Bindery.Proofs.Graph.Order
import Bindery.Proofs.Graph.Reachable
import Bindery.Proofs.Bundle.Directories
import Bindery.Proofs.Bundle.Overwrite
import Bindery.Proofs.Bundle.Minify
import Bindery.Proofs.Bundle.Single
import Bindery.Proofs.Bundle.Repeat
import Bindery.Proofs.Bundle.ChunkFile
import Bindery.Proofs.Bundle.Stability
import Bindery.Proofs.Profile.Check
import Bindery.Proofs.Profile.Resolve
import Bindery.Proofs.Bundle.ChunkName
import Bindery.Proofs.Bundle.Manifest
import Bindery.Proofs.Json.Quoted
import Bindery.Proofs.Bundle.ContentAddress
import Bindery.Proofs.Relative
import Bindery.Proofs.Session.Watch
import Bindery.Proofs.Bundle.Failure
import Bindery.Proofs.Bundle.Untouched
import Bindery.Proofs.Bundle.Report
import Bindery.Proofs.Bundle.Distinct
import Bindery.Proofs.Bundle.Merge
import Bindery.Proofs.Bundle.Boundary
import Bindery.Proofs.Bundle.BootOrder
import Bindery.Proofs.Bundle.Placement
import Bindery.Proofs.Bundle.PublicName
import Bindery.Proofs.Bundle.Copies
import Bindery.Proofs.Bundle.HotUpdate
import Bindery.Proofs.Scan.Matcher
import Bindery.Proofs.Scan.GlobalWrite
import Bindery.Proofs.Text.Utf8
import Bindery.Proofs.Scan.Emitted
import Bindery.Proofs.Json.Skip
import Bindery.Proofs.Graph.Description
import Bindery.Proofs.Graph.Package
import Bindery.Proofs.Module.Id
import Bindery.Proofs.Graph.Resolution
import Bindery.Proofs.Scan.Lines
import Bindery.Proofs.Scan.Quotation
import Bindery.Proofs.Scan.Statement
import Bindery.Proofs.Scan.StyleRule
import Bindery.Proofs.Bundle.RuleChain
import Bindery.Proofs.Text.Lines
import Bindery.Proofs.Text.Vlq
import Bindery.Proofs.Json.Literal
import Bindery.Proofs.Bundle.ScriptLines
import Bindery.Proofs.Bundle.SourceMapTokens
import Bindery.Proofs.Bundle.SourceMap
import Bindery.Proofs.Bundle.DependencyMap
import Bindery.Proofs.Bundle.EvalScript
import Bindery.Proofs.Bundle.OutputPath
import Bindery.Proofs.Profile.Stack
import Bindery.Proofs.Config.Root
import Bindery.Proofs.Bundle.SizeHint
import Bindery.Proofs.Session.Gathering
import Bindery.Proofs.Bundle.Atomicity
import Bindery.Proofs.Session.Markup
import Bindery.Proofs.Session.ErrorPage
