/-
The command line: `redact <input> [output] [--verbose]`. It lists the string
loads of an image and, given an output, writes a copy with their payloads
overwritten. What is printed, and what is written, is a function of the request
and of the bytes of the input.
-/
import ManagedImage.Redaction.Patch
import ManagedImage.Redaction.Scan
import ManagedImage.Text.Quoted

namespace ManagedImage

/-- What the command line asks for. -/
structure Request where
  input : String
  output : Option String
  /-- Whether the events of least gravity are shown too. -/
  verbose : Bool
deriving DecidableEq, Repr

namespace Request

/-- The request of a list of arguments; none without an input. -/
def ofArgs (args : List String) : Option Request :=
  match args.filter (!·.startsWith "--") with
  | [] => none
  | input :: rest => some ⟨input, rest.head?, args.contains "--verbose"⟩

/-- What is printed when no input is given. -/
def usage (program : String) : String :=
  s!"Usage: {program} <path-to-dotnet-assembly> [output] [--verbose]\n\n" ++
    "Lists the string literals loaded by ldstr and, given an output path,\n" ++
    "writes a copy with their UTF-16 payload overwritten.\n"

/-- The settings of the command line. -/
def config : ScanConfig := .standard

/-- The line of a string load. -/
def loadLine (load : StringLoad) : String :=
  s!"  {load.method.text} IL@" ++ Hex.marked 6 load.instructionOffset ++ " #US[" ++
    Hex.marked 0 load.entry ++ "] " ++ Text.quote load.value ++ "\n"

/-- The line of a method that could not be scanned. -/
def failureLine (failure : MethodFailure) : String :=
  s!"  {failure.token.text}: " ++ failure.error.describe ++ "\n"

/-- The lines of a report. -/
def listing (report : ScanReport) : String :=
  "\nString loads:\n" ++ String.join (report.loads.map loadLine) ++
    (if report.isComplete then ""
     else
      "\nMethods that could not be scanned:\n" ++
        String.join (report.failures.map failureLine)) ++
    s!"\n{report.loads.length} loads of {report.unique.length} distinct strings in " ++
    s!"{report.scanned} methods\n"

/-- The line that confirms a written copy. -/
def confirmation (copy : RedactedImage) (output : String) : String :=
  s!"Redacted {copy.patched.length} strings ({copy.patchedBytes} bytes) into {output}\n"

/-- What is printed of an image, and the copy to write if there is an output. -/
def answer (r : Request) (image : Image) (name : String) :
    String × Except Error (Option RedactedImage) :=
  let report := image.scan config
  (s!"Module: {name}\nRuntime: {image.root.version}\n" ++ listing report,
   if r.output.isSome then some <$> image.redact report config else .ok none)

/--
What is printed for the bytes of the input, and the copy to write, or the
failure that ends the run.
-/
def run (r : Request) (data : Bytes) : String × Except Error (Option RedactedImage) :=
  match Image.ofBytes data with
  | .error error => ("", .error error)
  | .ok image =>
    match image.moduleName with
    | .error error => ("", .error error)
    | .ok name => r.answer image name

end Request

end ManagedImage
