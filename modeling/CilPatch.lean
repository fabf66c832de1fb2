import CilPatch.Assembly.Basic
import CilPatch.Assembly.Declaration
import CilPatch.Assembly.PatchSection
import CilPatch.Assembly.Query
import CilPatch.Assembly.Types
import CilPatch.Bytes.Align
import CilPatch.Bytes.Compressed
import CilPatch.Bytes.Cursor
import CilPatch.Bytes.Emission
import CilPatch.Bytes.LittleEndian
import CilPatch.Cli.Filter
import CilPatch.Cli.Help
import CilPatch.Cli.Log
import CilPatch.Cli.Options
import CilPatch.Cli.Run
import CilPatch.Cli.Table
import CilPatch.Code.Decode
import CilPatch.Code.Encode
import CilPatch.Code.InstrList
import CilPatch.Code.Layout
import CilPatch.Decimal.Format
import CilPatch.Decimal.Shortest
import CilPatch.Digest.Sha256
import CilPatch.Disk.Files
import CilPatch.Disk.Output
import CilPatch.Disk.Path
import CilPatch.Fault
import CilPatch.Fishing.Catalog
import CilPatch.Fishing.Catch
import CilPatch.Fishing.Patches
import CilPatch.Fishing.Recast
import CilPatch.Game.Backup
import CilPatch.Game.Config
import CilPatch.Game.Patcher
import CilPatch.Heap.Blob
import CilPatch.Heap.Guid
import CilPatch.Heap.Strings
import CilPatch.Image.Checksum
import CilPatch.Image.File
import CilPatch.Image.Headers
import CilPatch.Instruction
import CilPatch.Main
import CilPatch.Metadata.CliHeader
import CilPatch.Metadata.Root
import CilPatch.Metadata.StreamHeader
import CilPatch.Method.Body
import CilPatch.Method.Clause
import CilPatch.Method.Header
import CilPatch.Notice
import CilPatch.Opcode
import CilPatch.Patch.Apply
import CilPatch.Patch.Fragment
import CilPatch.Patch.Pattern
import CilPatch.Patch.Splice
import CilPatch.Proofs.Assembly.Bodies
import CilPatch.Proofs.Assembly.Loading
import CilPatch.Proofs.Assembly.Metadata
import CilPatch.Proofs.Assembly.Rebuilt
import CilPatch.Proofs.Assembly.Rewrite
import CilPatch.Proofs.Assembly.Separation
import CilPatch.Proofs.Assembly.Stored
import CilPatch.Proofs.Assembly.Survival
import CilPatch.Proofs.Bytes.Align
import CilPatch.Proofs.Bytes.Block
import CilPatch.Proofs.Bytes.Compressed
import CilPatch.Proofs.Bytes.Cursor
import CilPatch.Proofs.Bytes.Forward
import CilPatch.Proofs.Bytes.Local
import CilPatch.Proofs.Code.Encoding
import CilPatch.Proofs.Code.Layout
import CilPatch.Proofs.Code.Operand
import CilPatch.Proofs.Code.Reading
import CilPatch.Proofs.Code.Recovery
import CilPatch.Proofs.Code.Reencoding
import CilPatch.Proofs.Code.Relaxation
import CilPatch.Proofs.Code.Resolution
import CilPatch.Proofs.Code.RoundTrip
import CilPatch.Proofs.Disk.Leads
import CilPatch.Proofs.Disk.Output
import CilPatch.Proofs.Disk.Siblings
import CilPatch.Proofs.Game.Backup
import CilPatch.Proofs.Game.History
import CilPatch.Proofs.Game.Run
import CilPatch.Proofs.Heap.Growth
import CilPatch.Proofs.Image.Headers
import CilPatch.Proofs.Metadata.Root
import CilPatch.Proofs.Method.Reencoding
import CilPatch.Proofs.Patch.Call
import CilPatch.Proofs.Patch.ControlFlow
import CilPatch.Proofs.Patch.Coverage
import CilPatch.Proofs.Patch.Failure
import CilPatch.Proofs.Patch.Numbering
import CilPatch.Proofs.Patch.Redirection
import CilPatch.Proofs.Patch.Refusal
import CilPatch.Proofs.Patch.Rewiring
import CilPatch.Proofs.Patch.Session
import CilPatch.Proofs.Patch.Splice
import CilPatch.Proofs.Patch.StackDepth
import CilPatch.Proofs.Patch.Workbench
import CilPatch.Proofs.Signature.Extension
import CilPatch.Proofs.Signature.Reading
import CilPatch.Proofs.Step
import CilPatch.Proofs.Table.Edit
import CilPatch.Proofs.Table.Row
import CilPatch.Proofs.Table.Stream
import CilPatch.Proofs.Table.Widening
import CilPatch.Proofs.Task
import CilPatch.Report.Assembly
import CilPatch.Report.Code
import CilPatch.Report.Metadata
import CilPatch.Report.Tree
import CilPatch.Signature.Element
import CilPatch.Signature.Read
import CilPatch.Signature.Type
import CilPatch.Signature.Write
import CilPatch.Table.CodedIndex
import CilPatch.Table.Column
import CilPatch.Table.Id
import CilPatch.Table.Rows
import CilPatch.Table.Stream
import CilPatch.Table.Widths
import CilPatch.Text.Blank
import CilPatch.Text.CharSet
import CilPatch.Text.Hex
import CilPatch.Text.Latin
import CilPatch.Text.Lines
import CilPatch.Text.NameTables
import CilPatch.Text.Ranges
import CilPatch.Text.Regex
import CilPatch.Text.Regex.Bracket
import CilPatch.Text.Regex.Escape
import CilPatch.Text.Regex.Meaning
import CilPatch.Text.Regex.Part
import CilPatch.Text.Regex.Pattern
import CilPatch.Text.Regex.Reader
import CilPatch.Text.Regex.Refusal
import CilPatch.Text.Regex.Room
import CilPatch.Text.Terminal
import CilPatch.Text.Width
import CilPatch.Text.WidthTables
import CilPatch.Token
import CilPatch.Proofs.Image.Checksum
import CilPatch.Proofs.Assembly.StoredChecksum
import CilPatch.Proofs.Assembly.AddressSpace
import CilPatch.Proofs.Assembly.Preservation
import CilPatch.Proofs.Patch.Search
import CilPatch.Proofs.Assembly.Query
import CilPatch.Proofs.Assembly.Nesting
import CilPatch.Proofs.Fishing.DryRun
import CilPatch.Proofs.Execution.Machine
import CilPatch.Proofs.Execution.Spliced
import CilPatch.Proofs.Patch.Acceptance
import CilPatch.Proofs.Fishing.RecastCode
import CilPatch.Proofs.Fishing.RecastRun
import CilPatch.Proofs.Fishing.Casting
import CilPatch.Proofs.Fishing.AutoRecast
import CilPatch.Proofs.Heap.Appending
import CilPatch.Proofs.Method.Storable
import CilPatch.Proofs.Assembly.Members
import CilPatch.Proofs.Assembly.Undecodable
import CilPatch.Proofs.Assembly.Resolution
import CilPatch.Proofs.Assembly.OwnBytes
