/-
Everything that can go wrong, as causes. An access outside a byte vector says
where it began, how many bytes it wanted and how many the whole vector has; a
`Defect` is a breach of the format, one constructor for each check, with the
values the check saw. The wordings are in `Defect.message`, `Error.message` and
`Error.describe` only.
-/
import ManagedImage.Text.Utf8
import ManagedImage.Metadata.CodedKind

namespace ManagedImage

/-- A breach of the format of an image. -/
inductive Defect where
  /-- The stub header does not begin with `MZ`. -/
  | stubMagic (offset : Nat) (found : UInt16)
  /-- The signature in front of the file header is not `PE` and two zero bytes. -/
  | imageSignature (offset : Nat) (found : UInt32)
  /-- The optional header is of neither known layout. -/
  | optionalMagic (offset : Nat) (found : UInt16)
  /-- The optional header ends before its directories do. -/
  | directoriesCutOff (size : Nat) (count : UInt32)
  /-- No compressed number begins with this byte. -/
  | compressedLead (lead : UInt8) (offset : Nat)
  /-- A text between two positions is not UTF-8. -/
  | text (start stop : Nat) (fault : Utf8.Fault)
  /-- The CLI header states a size of its own that it does not have. -/
  | cliHeaderSize (found : UInt32)
  /-- The CLI header has no metadata. -/
  | noMetadata (rva size : UInt32)
  /-- The metadata root does not begin with `BSJB`. -/
  | rootSignature (found : UInt32)
  /-- The version text has no zero byte within its declared length. -/
  | versionUnterminated (length : UInt32)
  /-- The version text has other bytes behind its zero byte. -/
  | versionPadding (stop : Nat) (length : UInt32)
  /-- The version text is not UTF-8. -/
  | versionText
  /-- The metadata root has no streams. -/
  | noStreams
  /-- A stream's end does not fit in 32 bits. -/
  | streamEndOverflow (offset size : UInt32)
  /-- A stream ends past the metadata. -/
  | streamPastEnd (name : String) (stop size : Nat)
  /-- A stream's name has no zero byte where one must be. -/
  | streamNameUnterminated (offset : Nat)
  /-- A stream's name is not UTF-8. -/
  | streamNameText (offset : Nat)
  /-- A stream's address does not fit in 32 bits. -/
  | streamRvaOverflow (name : String) (rva offset : UInt32)
  /-- No stream holds the tables. -/
  | noTablesStream
  /-- Two streams hold tables. -/
  | twoTablesStreams
  /-- The mask of present tables is zero. -/
  | noTables
  /-- A table ends past its stream. -/
  | tablePastEnd (table : TableId) (rows rowSize offset size : Nat)
  /-- The tag of a coded index selects no table. -/
  | codedTag (tag : Nat) (kind : CodedKind) (value : Nat)
  /-- The heap of strings does not begin with the empty string. -/
  | stringsHeap
  /-- No text stands at this index of the heap of strings. -/
  | stringText (index : Nat)
  /-- The heap of user strings does not begin with the empty entry. -/
  | userStringsHeap
  /-- A user string's length counts pairs of bytes and a flag, so it is odd or zero. -/
  | evenUserString (offset length : Nat)
  /-- The heap of GUIDs ends inside a record. -/
  | guidHeap (size : Nat)
  /-- The heap of blobs does not begin with the empty blob. -/
  | blobHeap
  /-- A byte that is no opcode. -/
  | opcode (value : UInt8) (offset : Nat)
  /-- A byte that is no opcode behind the escape byte. -/
  | escapedOpcode (value : UInt8) (offset : Nat)
  /-- A string load whose token is of another table. -/
  | foreignToken (offset : Nat) (token : Token)
  /-- A string load in an image without user strings. -/
  | noUserStrings (offset : Nat)
  /-- A string load whose token points between the entries of the heap. -/
  | insideEntry (offset : Nat) (token : Token)
  /-- The table of modules is empty. -/
  | noModule
  /-- The image has no heap of strings. -/
  | noStrings
  /-- The image has no heap of GUIDs. -/
  | noGuids
deriving DecidableEq, Repr

/-- The wording of a defect. -/
def Defect.message : Defect → String
  | .stubMagic offset found =>
    s!"Invalid DOS magic at offset {offset} - expected 0x5a4d, found " ++ Hex.marked 4 found.toNat
  | .imageSignature offset found =>
    s!"Invalid PE signature at offset {offset} - expected 0x00004550, found " ++
      Hex.marked 8 found.toNat
  | .optionalMagic offset found =>
    s!"Invalid optional header magic at offset {offset} - " ++ Hex.marked 4 found.toNat
  | .directoriesCutOff size count =>
    s!"Optional header of {size} bytes can not hold {count} data directories"
  | .compressedLead lead offset =>
    "Invalid compressed uint - " ++ Hex.marked 2 lead.toNat ++ s!" at offset {offset}"
  | .text start stop fault =>
    s!"Invalid UTF-8 string at offset {start}-{stop}: " ++ fault.message
  | .cliHeaderSize found => s!"Invalid CLI header size - expected 72, found {found}"
  | .noMetadata rva size =>
    "CLI header has an empty metadata directory - rva " ++ Hex.marked 0 rva.toNat ++
      s!", size {size}"
  | .rootSignature found =>
    "CIL_HEADER_MAGIC does not match - expected 0x424a5342, found " ++ Hex.marked 8 found.toNat
  | .versionUnterminated length =>
    s!"Version string is not terminated within its declared length of {length}"
  | .versionPadding stop length =>
    s!"Version string ends at {stop} but its declared length is {length}"
  | .versionText => "Version string is not valid UTF-8"
  | .noStreams => "Metadata root declares no streams"
  | .streamEndOverflow offset size =>
    s!"Stream offset and size cause integer overflow - {offset} + {size}"
  | .streamPastEnd name stop size =>
    s!"Stream {name} ends at " ++ Hex.marked 0 stop ++ ", past the metadata size of " ++
      Hex.marked 0 size
  | .streamNameUnterminated offset =>
    s!"Stream name at offset {offset} is not terminated within 32 bytes"
  | .streamNameText offset => s!"Stream name at offset {offset} is not valid UTF-8"
  | .streamRvaOverflow name rva offset =>
    s!"Stream {name} RVA overflows - " ++ Hex.marked 0 rva.toNat ++ " + " ++
      Hex.marked 0 offset.toNat
  | .noTablesStream => "Metadata root has neither a #~ nor a #- stream"
  | .twoTablesStreams => "Metadata root has both a #~ and a #- stream"
  | .noTables => "No valid rows in any of the tables"
  | .tablePastEnd table rows rowSize offset size =>
    s!"Table {table.name} with {rows} rows of {rowSize} bytes at offset {offset} " ++
      s!"overruns the #~ stream of {size} bytes"
  | .codedTag tag kind value =>
    s!"Invalid tag {tag} in {kind.name} coded index " ++ Hex.marked 0 value
  | .stringsHeap => "Provided #Strings heap is empty or invalid"
  | .stringText index => s!"Invalid string at index - {index}"
  | .userStringsHeap => "Provided #US heap is empty or invalid"
  | .evenUserString offset length =>
    s!"#US entry at offset {offset} has an even length of {length}"
  | .guidHeap size => s!"#GUID heap size {size} is not a multiple of 16"
  | .blobHeap => "Invalid memory for #Blob heap"
  | .opcode value offset =>
    "Undefined opcode " ++ Hex.upper 2 value.toNat ++ " at offset " ++ Hex.marked 0 offset
  | .escapedOpcode value offset =>
    "Undefined opcode FE " ++ Hex.upper 2 value.toNat ++ " at offset " ++ Hex.marked 0 offset
  | .foreignToken offset token =>
    "ldstr at offset " ++ Hex.marked 0 offset ++
      s!" has token {token.text}, which is not a #US reference"
  | .noUserStrings offset =>
    "ldstr at offset " ++ Hex.marked 0 offset ++ " but the image has no #US heap"
  | .insideEntry offset token =>
    "ldstr at offset " ++ Hex.marked 0 offset ++
      s!" has token {token.text}, which points inside a #US entry"
  | .noModule => "Image has no Module row"
  | .noStrings => "Image has no #Strings heap"
  | .noGuids => "Image has no #GUID heap"

/-- A failure of an operation. -/
inductive Error where
  /-- An access of `needed` bytes at `offset`, of a vector that has `available` bytes in all. -/
  | outOfBounds (offset needed available : Nat)
  | malformed (defect : Defect)
  /-- An address that no section holds in the file. -/
  | unmappedRva (rva : UInt32)
  /-- The first byte of a method body is of no known header. -/
  | methodHeader (offset : Nat) (value : UInt8)
  /-- A table whose rows have no known layout, so that what follows it cannot be found. -/
  | unsupportedTable (number : Nat)
  /-- The file is an image without a CLI header. -/
  | notSupported
  /-- There is nothing to read. -/
  | empty
  /-- A file could not be read or written, for the stated reason. -/
  | file (reason : String)
deriving DecidableEq, Repr

namespace Error

/-- The wording of a failure; a defect speaks for itself. -/
def message : Error → String
  | .outOfBounds offset needed available =>
    "Out of bound read at offset " ++ Hex.marked 0 offset ++
      s!" - needed {needed} bytes, {available} available"
  | .malformed defect => defect.message
  | .unmappedRva rva => "RVA " ++ Hex.marked 8 rva.toNat ++ " is not covered by any section"
  | .methodHeader offset value =>
    "Invalid method header " ++ Hex.marked 2 value.toNat ++ " at offset " ++ Hex.marked 0 offset
  | .unsupportedTable number =>
    "Table " ++ Hex.marked 2 number ++ " is present but its row layout is unknown"
  | .notSupported => "This file type is not supported"
  | .empty => "Provided input was empty"
  | .file reason => reason

/-- The wording of a failure on a line of its own: a defect is announced as one. -/
def describe : Error → String
  | .malformed defect => "Malformed - " ++ defect.message
  | error => error.message

end Error

end ManagedImage
