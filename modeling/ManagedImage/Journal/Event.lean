/-
The events that a run reports on the side, apart from its results: how each is
worded and how grave it is.
-/
import ManagedImage.Metadata.Tables
import ManagedImage.Metadata.Stream
import ManagedImage.Pe.File

namespace ManagedImage

/-- How grave an event is. -/
inductive Severity where
  | debug | info | warn
deriving DecidableEq, Repr

/-- The name of a severity. -/
def Severity.name : Severity → String
  | .debug => "DEBUG"
  | .info => "INFO"
  | .warn => "WARN"

/-- Something that a run reports on the side. -/
inductive Event where
  | headersRead (machine : UInt16) (sections : Nat) (magic : UInt16)
  /-- An address has no bytes in the file, being in the zero tail of a section. -/
  | zeroTail (rva : UInt32) (name : String) (rawSize : UInt32)
  | streamRead (stream : StreamHeader)
  | streamPlaced (stream : Stream)
  | tablePlaced (placement : Placement)
  /-- A method has an address, but of other code than CIL. -/
  | otherCode (rid : Nat) (token : Token) (rva : UInt32) (kind : CodeKind)
  | bodyLost (rid : Nat) (token : Token) (rva : UInt32) (error : Error)
  | bodiesLocated (found withoutBody failed : Nat)
  | walkStopped (entries : Nat) (error : Error)
  | loadSkipped (offset : Nat) (token : Token)
  | scanFailed (rid : Nat) (token : Token) (error : Error)
  | scanned (methods loads strings failures : Nat)
  | redacted (strings bytes : Nat) (filler : UInt8)
  | written (bytes : Nat) (path : String)
deriving DecidableEq, Repr

namespace Event

/-- How grave an event is. -/
def severity : Event → Severity
  | .bodyLost .. | .walkStopped .. | .scanFailed .. => .warn
  | .scanned .. | .redacted .. | .written .. => .info
  | _ => .debug

/-- The wording of an event, given that of errors. -/
def message (describe : Error → String) : Event → String
  | .headersRead machine sections magic =>
    "PE headers: machine " ++ Hex.marked 4 machine.toNat ++
      s!", {sections} sections, optional header magic " ++ Hex.marked 3 magic.toNat
  | .zeroTail rva name rawSize =>
    "RVA " ++ Hex.marked 0 rva.toNat ++ s!" falls into the virtual tail of section {name} (" ++
      Hex.marked 0 rawSize.toNat ++ " raw bytes)"
  | .streamRead stream =>
    s!"Stream {stream.name} at metadata offset " ++ Hex.marked 0 stream.offset.toNat ++
      s!", {stream.size} bytes"
  | .streamPlaced stream =>
    s!"Stream {stream.name} at file offset " ++ Hex.marked 0 stream.fileOffset ++
      s!", {stream.size} bytes"
  | .tablePlaced p =>
    s!"Table {p.table.name}: {p.rowCount} rows of {p.rowSize} bytes at offset " ++
      Hex.marked 0 p.offset
  | .otherCode rid token rva kind =>
    s!"Method {rid} (token {token.text}) at RVA " ++ Hex.marked 0 rva.toNat ++
      s!" has code type {kind.describe}, skipped"
  | .bodyLost rid token rva error =>
    s!"Method {rid} (token {token.text}) at RVA " ++ Hex.marked 0 rva.toNat ++
      " has no usable body - " ++ describe error
  | .bodiesLocated found withoutBody failed =>
    s!"Located {found} method bodies, {withoutBody} without body, {failed} failed"
  | .walkStopped entries error =>
    s!"#US heap walk stopped after {entries} entries - " ++ describe error
  | .loadSkipped offset token =>
    "Skipping ldstr at " ++ Hex.marked 0 offset ++ s!" with token {token.text}"
  | .scanFailed rid token error =>
    s!"Method {rid} (token {token.text}) could not be scanned - " ++ describe error
  | .scanned methods loads strings failures =>
    s!"Scanned {methods} methods: {loads} string loads, {strings} distinct strings, " ++
      s!"{failures} failures"
  | .redacted strings bytes filler =>
    s!"Redacted {strings} strings, {bytes} bytes overwritten with " ++ Hex.marked 2 filler.toNat
  | .written bytes path => s!"Wrote {bytes} bytes to {path}"

/-- The line of an event: its severity and its wording. -/
def line (describe : Error → String) (e : Event) : String :=
  e.severity.name ++ " " ++ e.message describe

end Event

end ManagedImage
