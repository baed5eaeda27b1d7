/-
The bodies of all methods of a file. Each row of the table of methods has no
body, a body that was found, or a body that could not be found; a failure does
not keep the others from being found.

Main statement: every row is counted once (`count_bodies`).
-/
import ManagedImage.Metadata.Table
import ManagedImage.Method.Body
import ManagedImage.Pe.File

namespace ManagedImage

/-- The body of a method. -/
structure MethodCode where
  rid : Nat
  token : Token
  rva : UInt32
  body : MethodBody
deriving DecidableEq, Repr

/-- A method whose body could not be found or scanned. -/
structure MethodFailure where
  rid : Nat
  token : Token
  error : Error
deriving DecidableEq, Repr

namespace MethodCode

/-- The body of a method; none for a method without CIL code. -/
def locate (f : File) (method : Row MethodDefColumns) : Except Error (Option MethodCode) := do
  if method.columns.hasBody then
    let offset ← f.fileOffset method.columns.rva
    let body ← MethodBody.read f.data offset
    return some ⟨method.rid, method.token, method.columns.rva, body⟩
  else return none

end MethodCode

/-- What became of each method. -/
structure MethodBodies where
  /-- In the order of the rows. -/
  found : List MethodCode
  failures : List MethodFailure
  /-- The count of methods without CIL code. -/
  withoutBody : Nat
deriving DecidableEq, Repr

namespace MethodBodies

/-- Adds what became of one more method, in front. -/
def add (method : Row MethodDefColumns) (outcome : Except Error (Option MethodCode))
    (b : MethodBodies) : MethodBodies :=
  match outcome with
  | .ok (some code) => { b with found := code :: b.found }
  | .ok none => { b with withoutBody := b.withoutBody + 1 }
  | .error error => { b with failures := ⟨method.rid, method.token, error⟩ :: b.failures }

/-- Finds the body of each method. -/
def locate (f : File) (methods : List (Row MethodDefColumns)) : MethodBodies :=
  methods.foldr (fun method b => b.add method (MethodCode.locate f method)) ⟨[], [], 0⟩

theorem count_bodies (f : File) (methods : List (Row MethodDefColumns)) :
    (locate f methods).found.length + (locate f methods).failures.length +
      (locate f methods).withoutBody = methods.length := by
  induction methods with
  | nil => rfl
  | cons method rest ih =>
    rw [List.length_cons, ← ih]
    simp only [locate, List.foldr_cons]
    unfold add
    split <;> simp only [List.length_cons] <;> omega

end MethodBodies

end ManagedImage
