/-
The metadata root: a signature, the version of the runtime and the list of
streams. Every stream must end within the metadata.

`streamsRead` keeps the entries in front of a bad one, which `read` refuses
together with it. `encode` is the stored form of a root.
-/
import ManagedImage.Metadata.Stream
import ManagedImage.Progress

namespace ManagedImage

/-- The fields of the metadata root in front of its list of streams. -/
structure RootHeader where
  signature : UInt32
  major : UInt16
  minor : UInt16
  reserved : UInt32
  /-- The count of bytes set aside for the version. -/
  versionLength : UInt32
  version : String
  flags : UInt16
  streamCount : UInt16
deriving DecidableEq, Repr

namespace RootHeader

/-- `BSJB`. -/
def expectedSignature : UInt32 := 0x424A5342

/-- The version text of the bytes set aside for it: up to a zero byte, with only zeros behind. -/
def versionOf (length : UInt32) (bytes : Bytes) : Except Error String := do
  let text := Bytes.upToNul bytes
  if text.size = bytes.size then throw (.malformed (.versionUnterminated length))
  if (bytes.extract text.size bytes.size).any (· ≠ 0) then
    throw (.malformed (.versionPadding text.size length))
  match Utf8.decode? text with
  | none => throw (.malformed .versionText)
  | some version => return version

/-- Reads the fields. -/
def read : Reader RootHeader := do
  let signature ← Reader.u32
  if signature ≠ expectedSignature then Reader.malformed (.rootSignature signature)
  let major ← Reader.u16
  let minor ← Reader.u16
  let reserved ← Reader.u32
  let versionLength ← Reader.u32
  let version ← Reader.ofExcept (versionOf versionLength (← Reader.take versionLength.toNat))
  Reader.align 4
  let flags ← Reader.u16
  let streamCount ← Reader.u16
  if streamCount = 0 then Reader.malformed .noStreams
  return { signature, major, minor, reserved, versionLength, version, flags, streamCount }

/-- The stored form of the fields; the version is filled up with zero bytes. -/
def encode (h : RootHeader) : List UInt8 :=
  let version := Utf8.encode h.version
  Bytes.leBytes 4 h.signature.toNat ++ Bytes.leBytes 2 h.major.toNat ++
    Bytes.leBytes 2 h.minor.toNat ++ Bytes.leBytes 4 h.reserved.toNat ++
    Bytes.leBytes 4 h.versionLength.toNat ++
    version ++ List.replicate (h.versionLength.toNat - version.length) 0 ++
    StreamHeader.padding h.versionLength.toNat ++
    Bytes.leBytes 2 h.flags.toNat ++ Bytes.leBytes 2 h.streamCount.toNat

end RootHeader

/-- The metadata root. -/
structure Root extends RootHeader where
  streams : List StreamHeader
deriving DecidableEq, Repr

namespace Root

/-- Reads an entry and checks that its stream ends within metadata of `size` bytes. -/
def readStream (size : Nat) : Reader StreamHeader := do
  let h ← StreamHeader.read
  if 0x100000000 ≤ h.stop then Reader.malformed (.streamEndOverflow h.offset h.size)
  if size < h.stop then Reader.malformed (.streamPastEnd h.name h.stop size)
  return h

/-- Reads up to `n` entries, and stops at the first bad one. -/
def readStreams (size : Nat) : Nat → Cursor → Progress Error StreamHeader
  | 0, _ => ⟨[], none⟩
  | n + 1, c =>
    match readStream size c with
    | .ok h after =>
      let later := readStreams size n after
      ⟨h :: later.done, later.fault⟩
    | .error e _ => ⟨[], some e⟩

/-- The header of the root and its list of streams up to the first bad one. -/
def parse (metadata : Bytes) : Except Error (RootHeader × Progress Error StreamHeader) :=
  match RootHeader.read (.start metadata) with
  | .ok header after => .ok (header, readStreams metadata.size header.streamCount.toNat after)
  | .error e _ => .error e

/-- The streams in front of a bad one, all of them if there is none. -/
def streamsRead (metadata : Bytes) : List StreamHeader :=
  match parse metadata with
  | .ok (_, streams) => streams.done
  | .error _ => []

/-- Reads the root at the start of the metadata. -/
def read (metadata : Bytes) : Except Error Root := do
  let (header, streams) ← parse metadata
  return ⟨header, ← streams.toExcept⟩

/-- The stored form of the root. -/
def encode (r : Root) : List UInt8 :=
  r.toRootHeader.encode ++ r.streams.flatMap StreamHeader.encode

/-- Finds the streams in the file up to the first that is not there. -/
def place (r : Root) (address : UInt32) (fileOffset : UInt32 → Except Error Nat) :
    Progress Error Stream :=
  Progress.traverse (Stream.place address fileOffset) r.streams

/-- The first stream of a name. -/
def stream? (r : Root) (name : String) : Option StreamHeader :=
  r.streams.find? (·.name = name)

end Root

/-- The stream of tables, of which there must be one, compressed or not. -/
def tablesStream {α : Type} (stream? : String → Option α) : Except Error α :=
  match stream? "#~", stream? "#-" with
  | some s, none => .ok s
  | none, some s => .ok s
  | none, none => .error (.malformed .noTablesStream)
  | some _, some _ => .error (.malformed .twoTablesStreams)

end ManagedImage
