/-
The scan of an image for string loads. A method is scanned as a whole: its code
must decode to the end, and the token of each of its string loads must refer to
the start of an entry that the walk of the heap reaches. Otherwise the method
fails and none of its loads is reported.
-/
import ManagedImage.Cil.StringSite
import ManagedImage.Image
import ManagedImage.Positions
import ManagedImage.Redaction.Config
import ManagedImage.Redaction.Report

namespace ManagedImage

/-- What the loads of an image are checked against. -/
structure LoadScope where
  heap : Option UserStringHeap
  /-- Where the heap lies in the file. -/
  heapStart : Nat
  /-- The positions of the entries that the walk of the heap reaches. -/
  entries : Positions
  skipForeign : Bool

namespace LoadScope

/-- The positions of the entries that the walk of a heap reaches. -/
def entriesOf (heap : UserStringHeap) : Positions :=
  .ofList heap.data.size (heap.walk.done.map (·.offset))

/-- The scope of an image. -/
def ofImage (i : Image) (config : ScanConfig) : LoadScope where
  heap := i.userStrings?
  heapStart := (i.streamSpan? "#US").elim 0 Span.start
  entries := i.userStrings?.elim (.empty 0) entriesOf
  skipForeign := config.skipForeign

/-- The load of an entry of the heap at a position of the file. -/
def loadOf (s : LoadScope) (code : MethodCode) (offset : Nat) (token : Token)
    (entry : UserString) : StringLoad where
  rid := code.rid
  method := code.token
  instructionOffset := offset
  token := token
  entry := token.index.toNat
  payload := entry.payloadSpan.shift s.heapStart
  flag := entry.flag
  value := entry.text

/-- The load of a site in a method, none for a foreign token that may be passed over. -/
def resolve (s : LoadScope) (code : MethodCode) (site : StringSite) :
    Except Error (Option StringLoad) := do
  let offset := code.body.codeSpan.start + site.offset
  if site.token.isUserString then
    match s.heap with
    | none => throw (.malformed (.noUserStrings offset))
    | some heap =>
      let entry ← heap.get site.token.index.toNat
      if s.entries.contains entry.offset then
        return some (s.loadOf code offset site.token entry)
      else throw (.malformed (.insideEntry offset site.token))
  else if s.skipForeign then return none
  else throw (.malformed (.foreignToken offset site.token))

/-- The string loads in the code of a method. -/
def sites (data : Bytes) (code : MethodCode) : Except Error (List StringSite) := do
  StringSite.findAll (← data.slice code.body.codeSpan.start code.body.codeSpan.length)

/-- The loads of a method. -/
def scanMethod (s : LoadScope) (data : Bytes) (code : MethodCode) :
    Except Error (List StringLoad) := do
  return (← (← sites data code).mapM (s.resolve code)).filterMap id

end LoadScope

namespace ScanReport

/-- Adds the outcome of one more method, in front. -/
def add (code : MethodCode) (outcome : Except Error (List StringLoad)) (r : ScanReport) :
    ScanReport :=
  match outcome with
  | .ok loads => { r with loads := loads ++ r.loads, scanned := r.scanned + 1 }
  | .error error => { r with failures := ⟨code.rid, code.token, error⟩ :: r.failures }

/-- The report of the methods with a body, given the loads of each. -/
def ofMethods (scan : MethodCode → Except Error (List StringLoad)) (codes : List MethodCode) :
    ScanReport :=
  codes.foldr (fun code r => r.add code (scan code)) .empty

end ScanReport

namespace Image

/-- Scans every method with a body. Failures to find a body are reported with the others. -/
def scan (i : Image) (config : ScanConfig) : ScanReport :=
  let bodies := i.methodBodies
  let scope := LoadScope.ofImage i config
  let scanned := ScanReport.ofMethods (scope.scanMethod i.data) bodies.found
  { scanned with
    failures := (bodies.failures ++ scanned.failures).mergeSort fun a b => a.rid ≤ b.rid
    withoutBody := bodies.withoutBody }

end Image

end ManagedImage
