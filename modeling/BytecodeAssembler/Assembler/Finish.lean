import BytecodeAssembler.Assembler.Directives
import BytecodeAssembler.Class.Encoding

/-!
# The end of a run

When a run ends, what is still open or missing is recorded as well. A class
is encoded only if nothing was recorded at all; what goes wrong in the
encoding is the one diagnostic of the run, and it has no line.

Writing hands the bytes out only once they are all there, so a run that
fails writes nothing.
-/

namespace BytecodeAssembler

/-- **Why a run gave no class.** -/
inductive Failure where
  /-- What was recorded, at least one diagnostic. -/
  | diagnosed (diagnostics : List Diagnostic)
  /-- Something outside the assembler failed. -/
  | inputOutput (text : String)
  deriving DecidableEq, Repr

namespace Failure

/-- The number of errors that a failure reports. -/
def count : Failure → Nat
  | .diagnosed diagnostics => diagnostics.length
  | .inputOutput _ => 1

/-- The lines in which a failure is shown. -/
def messages : Failure → List String
  | .diagnosed diagnostics => diagnostics.map Diagnostic.message
  | .inputOutput text => [s!"I/O error: {text}"]

/-- The failure as one text. -/
def message (f : Failure) : String := "\n".intercalate f.messages

end Failure

namespace Assembler

/-- **Record what is still open or missing.** -/
def checkEnd (a : Assembler) : Assembler :=
  let a := a.endField
  let a := if a.method.isSome then a.report .methodOpenAtEnd else a
  let a := if a.trees.isEmpty then a else a.report .annotationOpenAtEnd
  let a := if a.className?.isNone then a.report .missingClass else a
  if a.classSoFar.superClass.isNone && a.className? != some Class.rootName then
    a.report .missingSuper
  else a

/-- The class of a run, with the source file that the settings name if the
run named none. -/
def finalClass (a : Assembler) : Class :=
  { a.classSoFar with
    sourceFile := a.classSoFar.sourceFile.or a.settings.sourceFile }

/-- **End a run** and encode its class. -/
def finish (a : Assembler) : Except Failure ClassFile :=
  let a := a.checkEnd
  if a.diagnostics.isEmpty then
    match a.finalClass.encode with
    | .error fault => .error (.diagnosed [⟨none, fault⟩])
    | .ok file => .ok file
  else .error (.diagnosed a.diagnostics.toList)

/-- **End a run and write its class** to something that takes at most
`limit` bytes. What was taken is returned beside the outcome. -/
def write (a : Assembler) (limit : Nat) : Bytes × Except Failure Unit :=
  match a.finish with
  | .error failure => ([], .error failure)
  | .ok file =>
    let bytes := file.bytes
    if bytes.length ≤ limit then (bytes, .ok ())
    else (bytes.take limit, .error (.inputOutput "failed to write whole buffer"))

end Assembler

end BytecodeAssembler
