import MolecularTools.Archive.Crc32
import MolecularTools.Archive.Extended
import MolecularTools.Archive.Extract
import MolecularTools.Archive.Gzip
import MolecularTools.Archive.Header
import MolecularTools.Archive.Inflate
import MolecularTools.Archive.Member
import MolecularTools.Archive.PrefixCode
import MolecularTools.Archive.Source
import MolecularTools.Archive.Unpack
import MolecularTools.Checksum.Basic
import MolecularTools.Checksum.BlockHash
import MolecularTools.Checksum.Digest
import MolecularTools.Checksum.Md5
import MolecularTools.Checksum.Sha256
import MolecularTools.Checksum.Table
import MolecularTools.Checksum.Verify
import MolecularTools.Cli.Arguments
import MolecularTools.Cli.Exit
import MolecularTools.Cli.InstallScafacos
import MolecularTools.Cli.TabulateAngle
import MolecularTools.Config.Basic
import MolecularTools.Config.Document
import MolecularTools.Config.Field
import MolecularTools.Config.Load
import MolecularTools.Decimal.Binary64
import MolecularTools.Decimal.General
import MolecularTools.Decimal.Parse
import MolecularTools.Decimal.Round
import MolecularTools.Decimal.Shortest
import MolecularTools.Download
import MolecularTools.Failure
import MolecularTools.Fallback
import MolecularTools.Files.Listing
import MolecularTools.Files.Operations
import MolecularTools.Files.Path
import MolecularTools.Files.Tree
import MolecularTools.Files.Walk
import MolecularTools.Host.Basic
import MolecularTools.Host.Events
import MolecularTools.Host.Faults
import MolecularTools.Http.Client
import MolecularTools.Http.Status
import MolecularTools.Install.Directive
import MolecularTools.Install.Paths
import MolecularTools.Install.Run
import MolecularTools.Install.Stages
import MolecularTools.Json.Basic
import MolecularTools.Json.Decoder
import MolecularTools.Json.Number
import MolecularTools.Json.Printer
import MolecularTools.Json.Reader
import MolecularTools.Links.Names
import MolecularTools.Links.Relink
import MolecularTools.Machine.Basic
import MolecularTools.Machine.Delivery
import MolecularTools.Machine.Shell
import MolecularTools.Machine.Unpack
import MolecularTools.Main
import MolecularTools.Recipe
import MolecularTools.Shell.Program
import MolecularTools.Shell.Script
import MolecularTools.Shell.Token
import MolecularTools.Stream
import MolecularTools.Table.Calendar
import MolecularTools.Table.File
import MolecularTools.Table.Layout
import MolecularTools.Table.Output
import MolecularTools.Table.Potential
import MolecularTools.Table.Sampling
import MolecularTools.Table.Scalar
import MolecularTools.Table.Units
import MolecularTools.Task
import MolecularTools.Text.Blank
import MolecularTools.Text.Hex
import MolecularTools.Text.Lossy
import MolecularTools.Text.Number
import MolecularTools.Text.Pieces
import MolecularTools.Text.Printable
import MolecularTools.Text.Quoted
import MolecularTools.Writer
import MolecularTools.Proofs.Archive.Contents
import MolecularTools.Proofs.Binary64.Arithmetic
import MolecularTools.Proofs.Binary64.Mantissa
import MolecularTools.Proofs.Binary64.Order
import MolecularTools.Proofs.Binary64.Packing
import MolecularTools.Proofs.Binary64.Rounding
import MolecularTools.Proofs.Checksum
import MolecularTools.Proofs.Checksum.Grammar
import MolecularTools.Proofs.Checksum.Pieces
import MolecularTools.Proofs.Checksum.Reads
import MolecularTools.Proofs.Checksum.Text
import MolecularTools.Proofs.Cli.Appending
import MolecularTools.Proofs.Config.Addresses
import MolecularTools.Proofs.Config.Overlay
import MolecularTools.Proofs.Config.RoundTrip
import MolecularTools.Proofs.Decimal.Binary64
import MolecularTools.Proofs.Decimal.Denotation
import MolecularTools.Proofs.Decimal.General
import MolecularTools.Proofs.Decimal.Length
import MolecularTools.Proofs.Decimal.Numerals
import MolecularTools.Proofs.Decimal.Rounding
import MolecularTools.Proofs.Delivery
import MolecularTools.Proofs.Download
import MolecularTools.Proofs.Failure
import MolecularTools.Proofs.Fallback
import MolecularTools.Proofs.Fallback.Record
import MolecularTools.Proofs.Files.Clearing
import MolecularTools.Proofs.Files.Creation
import MolecularTools.Proofs.Files.Directories
import MolecularTools.Proofs.Files.Elsewhere
import MolecularTools.Proofs.Files.Ends
import MolecularTools.Proofs.Files.Entries
import MolecularTools.Proofs.Files.Leads
import MolecularTools.Proofs.Files.Lexical
import MolecularTools.Proofs.Files.Linking
import MolecularTools.Proofs.Files.Nodes
import MolecularTools.Proofs.Files.Onward
import MolecularTools.Proofs.Files.Paths
import MolecularTools.Proofs.Files.Pruning
import MolecularTools.Proofs.Files.Reading
import MolecularTools.Proofs.Files.Removal
import MolecularTools.Proofs.Files.Rewriting
import MolecularTools.Proofs.Files.Without
import MolecularTools.Proofs.Host.Allowed
import MolecularTools.Proofs.Host.Course
import MolecularTools.Proofs.Host.Mirror
import MolecularTools.Proofs.Host.Watch
import MolecularTools.Proofs.Http
import MolecularTools.Proofs.Install.Alike
import MolecularTools.Proofs.Install.Existing
import MolecularTools.Proofs.Install.Failures
import MolecularTools.Proofs.Install.Fetching
import MolecularTools.Proofs.Install.History
import MolecularTools.Proofs.Install.Integrity
import MolecularTools.Proofs.Install.Leftovers
import MolecularTools.Proofs.Install.Mirror
import MolecularTools.Proofs.Install.Order
import MolecularTools.Proofs.Install.Paths
import MolecularTools.Proofs.Install.Places
import MolecularTools.Proofs.Install.Progress
import MolecularTools.Proofs.Install.Rejected
import MolecularTools.Proofs.Install.Remains
import MolecularTools.Proofs.Install.Stages
import MolecularTools.Proofs.Install.Untouched
import MolecularTools.Proofs.Install.Usable
import MolecularTools.Proofs.Json.Scalars
import MolecularTools.Proofs.Json.Values
import MolecularTools.Proofs.Links
import MolecularTools.Proofs.Links.Clearing
import MolecularTools.Proofs.Links.Conditions
import MolecularTools.Proofs.Links.Forgetting
import MolecularTools.Proofs.Links.Refusal
import MolecularTools.Proofs.Links.Relinking
import MolecularTools.Proofs.Links.Replacing
import MolecularTools.Proofs.Machine
import MolecularTools.Proofs.Recipe
import MolecularTools.Proofs.Recipe.Record
import MolecularTools.Proofs.Stream
import MolecularTools.Proofs.Table.Columns
import MolecularTools.Proofs.Table.Domain
import MolecularTools.Proofs.Table.Exact
import MolecularTools.Proofs.Table.Header
import MolecularTools.Proofs.Table.Lowest
import MolecularTools.Proofs.Table.ReadBack
import MolecularTools.Proofs.Table.Reader
import MolecularTools.Proofs.Table.Settings
import MolecularTools.Proofs.Task
import MolecularTools.Proofs.Writer
