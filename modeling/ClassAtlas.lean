import ClassAtlas.Analysis.Run
import ClassAtlas.Archive.Inflate
import ClassAtlas.Archive.Zip
import ClassAtlas.Batch.Manifest
import ClassAtlas.Batch.Run
import ClassAtlas.ClassFile.Annotations
import ClassAtlas.ClassFile.Bytecode
import ClassAtlas.ClassFile.ConstantPool
import ClassAtlas.ClassFile.Cursor
import ClassAtlas.ClassFile.Decode
import ClassAtlas.ClassFile.Document
import ClassAtlas.ClassFile.Encode
import ClassAtlas.ClassFile.TypeName
import ClassAtlas.Classpath.Descriptor
import ClassAtlas.Classpath.Resolve
import ClassAtlas.Collections
import ClassAtlas.CommandLine.Command
import ClassAtlas.CommandLine.Execute
import ClassAtlas.CommandLine.Flag
import ClassAtlas.Decimal.Binary64
import ClassAtlas.Decimal.Layout
import ClassAtlas.Diagram.Sequence
import ClassAtlas.Diagram.Structure
import ClassAtlas.Digest.Blake2b
import ClassAtlas.Export.Files
import ClassAtlas.Failure
import ClassAtlas.File.Canonical
import ClassAtlas.File.Disk
import ClassAtlas.File.Path
import ClassAtlas.Graph.Adjacency
import ClassAtlas.Graph.Basic
import ClassAtlas.Graph.Components
import ClassAtlas.Graph.Document
import ClassAtlas.Graph.Import
import ClassAtlas.Json.Basic
import ClassAtlas.Json.Reader
import ClassAtlas.Json.Writer
import ClassAtlas.Log.Record
import ClassAtlas.Log.Writer
import ClassAtlas.Main
import ClassAtlas.Outside.Program
import ClassAtlas.Outside.Shell
import ClassAtlas.Project.Declaration
import ClassAtlas.Report.Basic
import ClassAtlas.Scan.Calls
import ClassAtlas.Scan.Endpoint
import ClassAtlas.Scan.Structure
import ClassAtlas.Scan.Vocabulary
import ClassAtlas.Session
import ClassAtlas.Settings.Basic
import ClassAtlas.Settings.Load
import ClassAtlas.Source.Build
import ClassAtlas.Source.Declaration
import ClassAtlas.Source.Scope
import ClassAtlas.Source.Token
import ClassAtlas.Store.Connection
import ClassAtlas.Store.Database
import ClassAtlas.Store.Document
import ClassAtlas.Store.Run
import ClassAtlas.Text.Basic
import ClassAtlas.Text.Integer
import ClassAtlas.Text.Letter
import ClassAtlas.Text.Lower
import ClassAtlas.Text.Quoted
import ClassAtlas.Text.Regex
import ClassAtlas.Text.Utf8
import ClassAtlas.Time.Moment
import ClassAtlas.Toml.Document
import ClassAtlas.Toml.Reader
import ClassAtlas.Toml.Scalar
import ClassAtlas.Toml.Value
import ClassAtlas.Yaml.Node
import ClassAtlas.Yaml.Reader
import ClassAtlas.Yaml.Shape
import ClassAtlas.Proofs.Graph.Adjacency
import ClassAtlas.Proofs.Graph.Search
import ClassAtlas.Proofs.Graph.Components
import ClassAtlas.Proofs.ClassFile.Reads
import ClassAtlas.Proofs.ClassFile.Truncation
import ClassAtlas.Proofs.ClassFile.ModifiedUtf8
import ClassAtlas.Proofs.ClassFile.Names
import ClassAtlas.Proofs.ClassFile.Pool
import ClassAtlas.Proofs.ClassFile.Building
import ClassAtlas.Proofs.ClassFile.Described
import ClassAtlas.Proofs.ClassFile.AnnotationRoundTrip
import ClassAtlas.Proofs.ClassFile.CodeRoundTrip
import ClassAtlas.Proofs.ClassFile.RoundTrip
import ClassAtlas.Proofs.Scan.Results
import ClassAtlas.Proofs.Diagram.Loops
import ClassAtlas.Proofs.Text.Digits
import ClassAtlas.Proofs.Json.RoundTrip
import ClassAtlas.Proofs.Graph.Document
import ClassAtlas.Proofs.Session
import ClassAtlas.Proofs.Store.Save
import ClassAtlas.Proofs.Store.Runs
import ClassAtlas.Proofs.Analysis.Stages
import ClassAtlas.Proofs.Analysis.Lifecycle
import ClassAtlas.Proofs.Text.Pieces
import ClassAtlas.Proofs.File.Path
import ClassAtlas.Proofs.File.Tidy
import ClassAtlas.Proofs.File.Walk
import ClassAtlas.Proofs.Classpath.Fingerprint
import ClassAtlas.Proofs.ClassFile.Signature
import ClassAtlas.Proofs.Source.Preamble
import ClassAtlas.Proofs.Source.TypeText
import ClassAtlas.Proofs.Graph.WellFormed
import ClassAtlas.Proofs.Scan.Contribution
import ClassAtlas.Proofs.Graph.Merge
import ClassAtlas.Proofs.Graph.Derived
import ClassAtlas.Proofs.Graph.Order
import ClassAtlas.Proofs.Scan.CallLevels
import ClassAtlas.Proofs.Scan.Closure
import ClassAtlas.Proofs.Export.Csv
import ClassAtlas.Proofs.File.Write
import ClassAtlas.Proofs.Export.Tables
import ClassAtlas.Proofs.Time.Calendar
import ClassAtlas.Proofs.Time.Stamp
import ClassAtlas.Proofs.Store.Ledger
import ClassAtlas.Proofs.Batch.Isolation
import ClassAtlas.Proofs.File.Canonical
import ClassAtlas.Proofs.File.Directory
import ClassAtlas.Proofs.Export.Artifacts
import ClassAtlas.Proofs.Analysis.Calls
import ClassAtlas.Proofs.Analysis.Ending
import ClassAtlas.Proofs.ClassFile.Instruction
import ClassAtlas.Proofs.ClassFile.Body
import ClassAtlas.Proofs.Graph.Union
import ClassAtlas.Proofs.Graph.ImportOrder
import ClassAtlas.Proofs.Diagram.CallPaths
import ClassAtlas.Proofs.Graph.Numbering
import ClassAtlas.Proofs.ClassFile.Grammar
import ClassAtlas.Proofs.ClassFile.GenericType
import ClassAtlas.Proofs.Text.Regex
import ClassAtlas.Proofs.Text.Trim
import ClassAtlas.Proofs.Scan.InjectionTarget
import ClassAtlas.Proofs.ClassFile.InPlace
import ClassAtlas.Proofs.ClassFile.Agreement
import ClassAtlas.Proofs.ClassFile.Attributes
import ClassAtlas.Proofs.ClassFile.Consumption
import ClassAtlas.Proofs.ClassFile.Safety
import ClassAtlas.Proofs.Batch.Additions
import ClassAtlas.Proofs.Scan.Routes
import ClassAtlas.Proofs.Export.Containment
import ClassAtlas.Proofs.Graph.Absorption
import ClassAtlas.Proofs.Classpath.Exclusion
import ClassAtlas.Proofs.Diagram.Associations
import ClassAtlas.Proofs.Toml.Document
import ClassAtlas.Proofs.Toml.RoundTrip
import ClassAtlas.Proofs.Batch.Reload
import ClassAtlas.Proofs.Project.BasePackage
import ClassAtlas.Proofs.ClassFile.Utf16
import ClassAtlas.Proofs.Graph.Insertion
