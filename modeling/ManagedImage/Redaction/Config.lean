/-
What a caller decides about scanning and redaction.
-/

namespace ManagedImage

/-- The settings of a scan and of the redaction that follows it. -/
structure ScanConfig where
  /-- Whether methods may be scanned at the same time. The report does not depend on it. -/
  parallel : Bool
  /-- The byte that redacted payloads are overwritten with. -/
  filler : UInt8
  /-- Whether string loads of foreign tokens are passed over, and not held against the method. -/
  skipForeign : Bool
deriving DecidableEq, Repr

namespace ScanConfig

/-- The settings of a caller who decides nothing. -/
def standard : ScanConfig := ⟨true, 0x00, false⟩

/-- One method after the other. -/
def sequential : ScanConfig := { standard with parallel := false }

/-- With foreign tokens passed over. -/
def lenient : ScanConfig := { standard with skipForeign := true }

end ScanConfig

end ManagedImage
