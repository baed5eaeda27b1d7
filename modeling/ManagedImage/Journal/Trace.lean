/-
What each operation reports on the side, as a function of what it is given. A
trace follows the operation step by step and ends where the operation does.
-/
import ManagedImage.Journal.Event
import ManagedImage.Redaction.Patch
import ManagedImage.Redaction.Scan

namespace ManagedImage

/-- The events of an operation, in order. -/
abbrev Trace := List Event

namespace Trace

/-- Looking up an address. -/
def ofAddress (file : File) (rva : UInt32) : Trace :=
  match file.headers.sections.tail? rva with
  | some s => [.zeroTail rva s.name s.rawSize]
  | none => []

/-- Reading the headers of a file. -/
def ofHeaders (h : Headers) : Trace :=
  [.headersRead h.file.machine h.sections.sections.length h.optional.magic]

/-- A failure to place a stream. -/
def ofFault (file : File) : Error → Trace
  | .unmappedRva rva => ofAddress file rva
  | _ => []

/-- Placing the tables once the streams are known. -/
def ofTables (file : File) (streams : List Stream) : Trace :=
  match Image.tablesBytes file streams with
  | .ok stream => (Tables.placed stream).map .tablePlaced
  | .error _ => []

/-- Reading the metadata of a file with a given CLI header. -/
def ofMetadata (file : File) (header : CliHeader) : Trace :=
  ofAddress file header.metadata.rva ++
    match Image.metadataBytes file header with
    | .error _ => []
    | .ok metadata =>
      (Root.streamsRead metadata).map .streamRead ++
        match Root.read metadata with
        | .error _ => []
        | .ok root =>
          let places := root.place header.metadata.rva file.fileOffset
          match places.fault with
          | some error => ofFault file error
          | none => places.done.map .streamPlaced ++ ofTables file places.done

/-- Loading an image. -/
def ofLoad (data : Bytes) : Trace :=
  match File.ofBytes data with
  | .error _ => []
  | .ok file =>
    ofHeaders file.headers ++
      (file.cliDirectory?.elim [] fun directory => ofAddress file directory.rva) ++
      match Image.readCliHeader file with
      | .error _ => []
      | .ok header => ofMetadata file header

/-- Finding the body of a method. -/
def ofMethod (file : File) (method : Row MethodDefColumns) : Trace :=
  let rva := method.columns.rva
  if method.columns.hasBody then
    match MethodCode.locate file method with
    | .ok _ => []
    | .error error => ofAddress file rva ++ [.bodyLost method.rid method.token rva error]
  else if rva = 0 then []
  else [.otherCode method.rid method.token rva method.columns.codeKind]

/-- Finding the bodies of all methods. -/
def ofBodies (i : Image) : Trace :=
  let bodies := i.methodBodies
  i.tables.methodDefs.rows.toList.flatMap (ofMethod i.file) ++
    [.bodiesLocated bodies.found.length bodies.withoutBody bodies.failures.length]

/-- Walking a heap of user strings. -/
def ofWalk (heap : UserStringHeap) : Trace :=
  match heap.walk.fault with
  | some error => [.walkStopped heap.walk.done.length error]
  | none => []

/-- The loads of a method that are passed over, up to the first that fails. -/
def ofSkipped (scope : LoadScope) (data : Bytes) (code : MethodCode) : Trace :=
  match LoadScope.sites data code with
  | .error _ => []
  | .ok sites =>
    let resolved := sites.takeWhile fun site => (scope.resolve code site).isOk
    (resolved.filter fun site => !site.token.isUserString).map fun site =>
      .loadSkipped (code.body.codeSpan.start + site.offset) site.token

/-- Scanning a method, once its loads have been resolved. -/
def ofOutcome (scope : LoadScope) (data : Bytes) (code : MethodCode) : Trace :=
  match scope.scanMethod data code with
  | .ok _ => []
  | .error error => [.scanFailed code.rid code.token error]

/-- Scanning an image. -/
def ofScan (i : Image) (config : ScanConfig) : Trace :=
  let scope := LoadScope.ofImage i config
  let codes := i.methodBodies.found
  let report := i.scan config
  ofBodies i ++ i.userStrings?.elim [] ofWalk ++
    codes.flatMap (ofSkipped scope i.data) ++ codes.flatMap (ofOutcome scope i.data) ++
    [.scanned report.scanned report.loads.length report.unique.length report.failures.length]

/-- Redacting an image. -/
def ofRedaction (config : ScanConfig) (result : Except Error RedactedImage) : Trace :=
  match result with
  | .ok copy => [.redacted copy.patched.length copy.patchedBytes config.filler]
  | .error _ => []

end Trace

end ManagedImage
