import ManagedImage.Bytes
import ManagedImage.Cil.Instruction
import ManagedImage.Cil.Opcode
import ManagedImage.Cil.StringSite
import ManagedImage.CommandLine
import ManagedImage.Compressed
import ManagedImage.Cursor
import ManagedImage.Describe
import ManagedImage.Error
import ManagedImage.Flag
import ManagedImage.Heap.Blobs
import ManagedImage.Heap.Guids
import ManagedImage.Heap.Strings
import ManagedImage.Heap.UserStrings
import ManagedImage.Image
import ManagedImage.Journal.Event
import ManagedImage.Journal.Trace
import ManagedImage.Main
import ManagedImage.Metadata.CliHeader
import ManagedImage.Metadata.CodedKind
import ManagedImage.Metadata.Root
import ManagedImage.Metadata.Row
import ManagedImage.Metadata.Schema
import ManagedImage.Metadata.Stream
import ManagedImage.Metadata.Table
import ManagedImage.Metadata.TableId
import ManagedImage.Metadata.Tables
import ManagedImage.Method.Bodies
import ManagedImage.Method.Body
import ManagedImage.Number.Binary64
import ManagedImage.Number.Shortest
import ManagedImage.Pe.File
import ManagedImage.Pe.FileHeader
import ManagedImage.Pe.OptionalHeader
import ManagedImage.Pe.Section
import ManagedImage.Positions
import ManagedImage.Progress
import ManagedImage.Proofs.AppendedData
import ManagedImage.Proofs.BodyHeaders
import ManagedImage.Proofs.CodedIndexes
import ManagedImage.Proofs.CompressedForms
import ManagedImage.Proofs.FailingReads
import ManagedImage.Proofs.FillHistory
import ManagedImage.Proofs.FixedLayouts
import ManagedImage.Proofs.HeaderPositions
import ManagedImage.Proofs.HeaderReads
import ManagedImage.Proofs.InstructionOrder
import ManagedImage.Proofs.InstructionSplit
import ManagedImage.Proofs.LenientScan
import ManagedImage.Proofs.Loading
import ManagedImage.Proofs.Machine.Code
import ManagedImage.Proofs.Machine.Headers
import ManagedImage.Proofs.Machine.Loading
import ManagedImage.Proofs.Machine.Readings
import ManagedImage.Proofs.Machine.Redaction
import ManagedImage.Proofs.Machine.Root
import ManagedImage.Proofs.Machine.Tables
import ManagedImage.Proofs.Machine.UserStrings
import ManagedImage.Proofs.Machine.Words
import ManagedImage.Proofs.MethodAccount
import ManagedImage.Proofs.MethodRuns
import ManagedImage.Proofs.MethodScan
import ManagedImage.Proofs.Overruns
import ManagedImage.Proofs.PayloadRedaction
import ManagedImage.Proofs.ReadSpans
import ManagedImage.Proofs.Readers
import ManagedImage.Proofs.RedactionSelection
import ManagedImage.Proofs.Rescan
import ManagedImage.Proofs.RootForms
import ManagedImage.Proofs.RowForms
import ManagedImage.Proofs.RowTokens
import ManagedImage.Proofs.SectionLookup
import ManagedImage.Proofs.StreamPlacement
import ManagedImage.Proofs.StreamRanges
import ManagedImage.Proofs.StringSites
import ManagedImage.Proofs.TableLayout
import ManagedImage.Proofs.TableRows
import ManagedImage.Proofs.UserStringBuild
import ManagedImage.Proofs.UserStringTiling
import ManagedImage.Proofs.UserStringWalk
import ManagedImage.Proofs.WrittenForms
import ManagedImage.Redaction.Config
import ManagedImage.Redaction.Patch
import ManagedImage.Redaction.Report
import ManagedImage.Redaction.Scan
import ManagedImage.Text.CodePoints
import ManagedImage.Text.Hex
import ManagedImage.Text.Quoted
import ManagedImage.Text.Unprintable
import ManagedImage.Text.Utf16
import ManagedImage.Text.Utf8
import ManagedImage.Token
import ManagedImage.Proofs.CursorCalls
