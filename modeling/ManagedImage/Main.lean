/-
The program: reads the input of a request, prints the answer, and writes the
copy. Events go to the error stream.
-/
import ManagedImage.CommandLine
import ManagedImage.Journal.Trace

namespace ManagedImage.Program

/-- The reason of a failure of the file system. -/
def failureReason : IO.Error → String
  | .noFileOrDirectory _ code details | .inappropriateType (some _) code details
  | .permissionDenied (some _) code details => s!"{details} (os error {code})"
  | error => toString error

/-- Shows events of enough gravity. -/
def showEvents (verbose : Bool) (events : Trace) : IO Unit :=
  for event in events do
    if verbose || event.severity ≠ .debug then
      IO.eprintln (event.line Error.describe)

/-- Ends a run that failed. -/
def fail (error : Error) : IO UInt32 := do
  IO.eprintln ("Error: " ++ error.describe)
  return 1

/-- The events of a request. -/
def requestEvents (request : Request) (data : Bytes) : Trace :=
  Trace.ofLoad data ++
    match Image.ofBytes data with
    | .error _ => []
    | .ok image =>
      Trace.ofScan image Request.config ++
        if request.output.isSome then
          Trace.ofRedaction Request.config
            (image.redact (image.scan Request.config) Request.config)
        else []

/-- Writes the copy of a request and confirms it. -/
def writeCopy (copy : RedactedImage) (output : String) : IO UInt32 := do
  match ← (IO.FS.writeBinFile output ⟨copy.data⟩).toBaseIO with
  | .error error => fail (.file (failureReason error))
  | .ok _ =>
    showEvents false [.written copy.data.size output]
    IO.print (Request.confirmation copy output)
    return 0

/-- Answers a request. -/
def run (args : List String) : IO UInt32 := do
  match Request.ofArgs args with
  | none =>
    IO.eprint (Request.usage "redact")
    return 0
  | some request =>
    match ← (IO.FS.readBinFile request.input).toBaseIO with
    | .error error => fail (.file (failureReason error))
    | .ok bytes =>
      let (printed, outcome) := request.run bytes.data
      showEvents request.verbose (requestEvents request bytes.data)
      IO.print printed
      match outcome, request.output with
      | .error error, _ => fail error
      | .ok (some copy), some output => writeCopy copy output
      | .ok _, _ => return 0

end ManagedImage.Program

def main (args : List String) : IO UInt32 := ManagedImage.Program.run args
