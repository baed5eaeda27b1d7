/-
The CLI header of a managed image: seventy-two bytes, of which the directory of
the metadata matters most.
-/
import ManagedImage.Pe.OptionalHeader
import ManagedImage.Flag

namespace ManagedImage

/-- The CLI header. -/
structure CliHeader where
  headerSize : UInt32
  runtimeMajor : UInt16
  runtimeMinor : UInt16
  metadata : DataDirectory
  flags : UInt32
  /-- A token, or an address for a native entry point. -/
  entryPoint : UInt32
  resources : DataDirectory
  strongName : DataDirectory
  codeManager : DataDirectory
  vtableFixups : DataDirectory
  exportJumps : DataDirectory
  nativeHeader : DataDirectory
deriving DecidableEq, Repr

namespace CliHeader

/-- The header takes 72 bytes, and says so in its first field. -/
def size : Nat := 72

/-- Reads a header. The metadata directory must point somewhere. -/
def read : Reader CliHeader := do
  Reader.ensure size
  let headerSize ← Reader.u32
  if headerSize.toNat ≠ size then Reader.malformed (.cliHeaderSize headerSize)
  let runtimeMajor ← Reader.u16
  let runtimeMinor ← Reader.u16
  let metadata ← DataDirectory.read
  if metadata.isEmpty then Reader.malformed (.noMetadata metadata.rva metadata.size)
  let flags ← Reader.u32
  let entryPoint ← Reader.u32
  let resources ← DataDirectory.read
  let strongName ← DataDirectory.read
  let codeManager ← DataDirectory.read
  let vtableFixups ← DataDirectory.read
  let exportJumps ← DataDirectory.read
  let nativeHeader ← DataDirectory.read
  return { headerSize, runtimeMajor, runtimeMinor, metadata, flags, entryPoint, resources,
           strongName, codeManager, vtableFixups, exportJumps, nativeHeader }

/-- The named bits of `flags`. -/
def flagNames : List Flag :=
  [⟨"IL_ONLY", 0x00001⟩, ⟨"REQUIRED_32BIT", 0x00002⟩, ⟨"IL_LIBRARY", 0x00004⟩,
   ⟨"STRONG_NAME_SIGNED", 0x00008⟩, ⟨"NATIVE_ENTRYPOINT", 0x00010⟩,
   ⟨"TRACK_DEBUG_DATA", 0x10000⟩, ⟨"PREFERRED_32BIT", 0x20000⟩]

end CliHeader

end ManagedImage
