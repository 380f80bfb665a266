import SourceAtlas.Text.Basic
import SourceAtlas.Json.Reader
import SourceAtlas.Json.Writer
import SourceAtlas.Disk.Update
import SourceAtlas.Disk.Resolve
import SourceAtlas.Graph.Cycles
import SourceAtlas.Graph.Notice
import SourceAtlas.Graph.Summary
import SourceAtlas.Syntax.Legibility
import SourceAtlas.Scan.Extract
import SourceAtlas.Analysis.Cohesion
import SourceAtlas.Json.Strict
import SourceAtlas.Json.Comments
import SourceAtlas.Glob.Basic
import SourceAtlas.Number.Numeral
import SourceAtlas.Digest.Sha256
import SourceAtlas.Settings.Discovery
import SourceAtlas.Settings.OptionsFile
import SourceAtlas.Scan.Scanner
import SourceAtlas.Main
import SourceAtlas.Proofs.Graph.History
import SourceAtlas.Proofs.Graph.Settling
import SourceAtlas.Proofs.Graph.Integrity
import SourceAtlas.Proofs.Graph.Content
import SourceAtlas.Proofs.Graph.Exactness
import SourceAtlas.Proofs.Graph.Confluence
import SourceAtlas.Proofs.Glob.Matching
import SourceAtlas.Proofs.Glob.Segments
import SourceAtlas.Proofs.Glob.Blocks
import SourceAtlas.Proofs.Glob.Entries
import SourceAtlas.Proofs.Glob.Pruning
import SourceAtlas.Proofs.Disk.Listing
import SourceAtlas.Proofs.Disk.Shape
import SourceAtlas.Proofs.Disk.Relisting
import SourceAtlas.Proofs.Settings.Discovery
import SourceAtlas.Proofs.Settings.Ignoring
import SourceAtlas.Proofs.Settings.DirectoryEntries
import SourceAtlas.Proofs.Text.NameSet
import SourceAtlas.Proofs.Graph.Rebuilding
import SourceAtlas.Proofs.Json.Document
import SourceAtlas.Proofs.Json.Stripping
import SourceAtlas.Proofs.Json.Tokens
import SourceAtlas.Proofs.Json.Reading
import SourceAtlas.Proofs.Json.Bounds
import SourceAtlas.Proofs.Json.Quoting
import SourceAtlas.Proofs.Json.Numerals
import SourceAtlas.Proofs.Json.Writing
import SourceAtlas.Proofs.Json.Literals
import SourceAtlas.Proofs.Syntax.Preorder
import SourceAtlas.Proofs.Syntax.Classification
import SourceAtlas.Proofs.Disk.Normal
import SourceAtlas.Proofs.Settings.Payload
import SourceAtlas.Proofs.Settings.Encoding
import SourceAtlas.Proofs.Scan.Caching
import SourceAtlas.Proofs.Graph.Gathering
import SourceAtlas.Proofs.Graph.Reparsing
import SourceAtlas.Proofs.Disk.Resolving
import SourceAtlas.Proofs.Disk.Counting
import SourceAtlas.Proofs.Grammar.Items
import SourceAtlas.Proofs.Grammar.States
import SourceAtlas.Proofs.Grammar.Stacks
import SourceAtlas.Proofs.Grammar.Derivation
import SourceAtlas.Proofs.Grammar.Outlines
import SourceAtlas.Proofs.Grammar.Productions
import SourceAtlas.Proofs.Grammar.Naming
import SourceAtlas.Proofs.Grammar.Starts
import SourceAtlas.Proofs.Syntax.Naming
import SourceAtlas.Proofs.Grammar.Names
import SourceAtlas.Proofs.Scan.Linking
import SourceAtlas.Proofs.Settings.Extending
import SourceAtlas.Proofs.Graph.Tracing
import SourceAtlas.Proofs.Scan.Dependencies
import SourceAtlas.Proofs.Settings.OptionFaults
import SourceAtlas.Proofs.Analysis.Signals
import SourceAtlas.Proofs.Analysis.Medians
import SourceAtlas.Proofs.Analysis.Reordering
import SourceAtlas.Proofs.Analysis.Exact
import SourceAtlas.Proofs.Analysis.Scoring
import SourceAtlas.Proofs.Analysis.Scaling
import SourceAtlas.Proofs.Analysis.Percentiles
import SourceAtlas.Proofs.Analysis.Ranks
import SourceAtlas.Proofs.Analysis.Outliers
import SourceAtlas.Proofs.Scan.Noninterference
import SourceAtlas.Proofs.Scan.Provenance
import SourceAtlas.Proofs.Graph.Widening
import SourceAtlas.Proofs.Graph.EdgeKeys
import SourceAtlas.Proofs.Graph.Cycles
import SourceAtlas.Proofs.Graph.ScanRoot
import SourceAtlas.Proofs.Disk.Probing
import SourceAtlas.Proofs.Syntax.Details
import SourceAtlas.Proofs.Syntax.Walking
import SourceAtlas.Proofs.Syntax.Patterns
import SourceAtlas.Proofs.CommandLine.Reports
