/-
The metadata root on the machine: the version is cut at its zero byte, the name
of a stream out of a window of 32 bytes, and the streams are placed in the file
one by one. What bounds these is that the cursor stands within the metadata.
-/
import ManagedImage.Proofs.Machine.Headers

namespace ManagedImage

namespace Machine

open Programmed (program faithful keeps)

/-! ## The version -/

/-- The version text. Both its bytes and those behind it are cut at the first zero byte. -/
def versionOf (length : UInt32) (bytes : Bytes) : Run String := do
  let stop := bytes.upToNul.size
  if stop = bytes.size then refuse (.malformed (.versionUnterminated length))
  let padding ← cut bytes stop bytes.size
  if padding.any (· ≠ 0) then refuse (.malformed (.versionPadding stop length))
  let text ← cut bytes 0 stop
  match Utf8.decode? text with
  | none => refuse (.malformed .versionText)
  | some version => return version

theorem versionOf_eq (length : UInt32) (bytes : Bytes) :
    versionOf length bytes = Run.of (RootHeader.versionOf length bytes) := by
  have inside := Bytes.size_upToNul_le bytes
  rw [versionOf, RootHeader.versionOf, cut_eq inside (Nat.le_refl _), cut_eq (Nat.zero_le _) inside,
    Bytes.extract_upToNul]
  dsimp only
  split
  · rfl
  rw [ok_bind]
  split
  · rfl
  rw [ok_bind]
  cases Utf8.decode? bytes.upToNul <;> rfl

instance (length : UInt32) (bytes : Bytes) :
    Programmed (Reader.ofExcept (RootHeader.versionOf length bytes)) :=
  computing _ (versionOf_eq length bytes)

instance : Programmed RootHeader.read := by delta RootHeader.read; dsimp only; infer_instance

/-! ## The streams -/

/-- The name of a stream and its padding. -/
def streamName : Reading String := do
  let c ← get
  let reach ← add 64 c.pos StreamHeader.nameLimit
  let window ← cut c.data c.pos (min reach c.data.size)
  let length := window.upToNul.size
  if length = window.size then
    if window.size < StreamHeader.nameLimit then
      throw (.refused (.outOfBounds c.pos StreamHeader.nameLimit c.data.size))
    else throw (.refused (.malformed (.streamNameUnterminated c.pos)))
  match Utf8.decode? (← cut window 0 length) with
  | none => throw (.refused (.malformed (.streamNameText c.pos)))
  | some text =>
    let whole ← add 64 length 1
    program (Reader.advance whole)
    program (Reader.align 4)
    return text

theorem streamName_faithful {c : Cursor} (sound : c.Addressable) :
    streamName c = ended (StreamHeader.readName c) := by
  have inside := sound.inside
  have short := sound.short
  rw [streamName, StreamHeader.readName, Reader.bind_of_ok (Reader.get_ok c),
    Reader.bind_of_ok (Reader.get_ok c), lift_bind (add_eq (by rw [StreamHeader.nameLimit]; omega)),
    lift_bind (cut_eq (by omega) (Nat.min_le_right ..))]
  dsimp only
  rw [← StreamHeader.window]
  have narrow : (StreamHeader.window c.data c.pos).size ≤ 32 := by
    rw [StreamHeader.window, Array.size_extract, StreamHeader.nameLimit]
    omega
  generalize StreamHeader.window c.data c.pos = window at narrow
  have length := Bytes.size_upToNul_le window
  rw [lift_bind (cut_eq (Nat.zero_le _) length), Bytes.extract_upToNul]
  by_cases ends : window.upToNul.size = window.size
  · rw [if_pos ends, if_pos ends]
    split <;> rfl
  rw [if_neg ends, if_neg ends]
  cases Utf8.decode? window.upToNul with
  | none => rfl
  | some text =>
    dsimp only
    rw [lift_bind (add_eq (by omega))]
    refine bind_program sound fun _ sound => bind_program sound fun _ _ => rfl

instance : Programmed StreamHeader.readName where
  program := streamName
  faithful := streamName_faithful
  keeps := addressable_of_read

instance : Programmed StreamHeader.read := by delta StreamHeader.read; infer_instance

/-- An entry of the list of streams. The end of the stream is tested before it is compared. -/
def streamEntry (size : Nat) : Reading StreamHeader := do
  let h ← program StreamHeader.read
  match checked 32 (h.offset.toNat + h.size.toNat) with
  | none => throw (.refused (.malformed (.streamEndOverflow h.offset h.size)))
  | some stop =>
    if size < stop then throw (.refused (.malformed (.streamPastEnd h.name stop size)))
    return h

theorem streamEntry_faithful {size : Nat} {c : Cursor} (sound : c.Addressable) :
    streamEntry size c = ended (Root.readStream size c) := by
  refine bind_program sound fun {h _} _ _ => ?_
  rw [StreamHeader.stop]
  by_cases fits : h.offset.toNat + h.size.toNat < 0x100000000
  · rw [checked_eq (show _ < 2 ^ 32 from fits), if_neg (Nat.not_le.2 fits)]
    dsimp only
    split <;> rfl
  · rw [checked, if_neg (show ¬ _ < 2 ^ 32 from fits), if_pos (Nat.le_of_not_lt fits)]
    rfl

instance (size : Nat) : Programmed (Root.readStream size) where
  program := streamEntry size
  faithful := streamEntry_faithful
  keeps := addressable_of_read

instance (size : Nat) : Programmed (Root.reader size) := by delta Root.reader; infer_instance

/-- The metadata root. -/
def root (metadata : Bytes) : Run Root := (program (Root.reader metadata.size)).runAt metadata 0

theorem root_eq {metadata : Bytes} (sound : (Cursor.start metadata).Addressable) :
    root metadata = Run.of (Root.read metadata) := by
  rw [Root.read_eq_run]
  exact runAt_program sound

/-- Finds a stream in the file. Its address is tested before it is used. -/
def placeStream (f : File) (address : UInt32) (h : StreamHeader) : Run Stream := do
  match checked 32 (address.toNat + h.offset.toNat) with
  | some rva => return ⟨h, ← fileOffset f (UInt32.ofNat rva)⟩
  | none => refuse (.malformed (.streamRvaOverflow h.name address h.offset))

theorem placeStream_eq (f : File) (address : UInt32) (h : StreamHeader) :
    placeStream f address h = Run.of (Stream.place address f.fileOffset h) := by
  rw [placeStream, Stream.place, checked]
  by_cases fits : address.toNat + h.offset.toNat < 0x100000000
  · have sum : UInt32.ofNat (address.toNat + h.offset.toNat) = address + h.offset := by
      rw [UInt32.ofNat_add, UInt32.ofNat_toNat, UInt32.ofNat_toNat]
    rw [if_pos (show _ < 2 ^ 32 from fits), if_pos fits]
    dsimp only
    rw [sum]
    exact Run.bind_of (fileOffset_eq _ _) fun _ _ => rfl
  · rw [if_neg (show ¬ _ < 2 ^ 32 from fits), if_neg fits]
    rfl

/-- Finds the streams in the file, in the order of the root. -/
def placeStreams (f : File) (address : UInt32) (r : Root) : Run (List Stream) :=
  r.streams.mapM (placeStream f address)

theorem placeStreams_eq (f : File) (address : UInt32) (r : Root) :
    placeStreams f address r = Run.of (r.place address f.fileOffset).toExcept := by
  rw [Root.place, Progress.toExcept_traverse]
  exact Run.mapM_of fun h _ => placeStream_eq f address h

end Machine

end ManagedImage
