import ExprWasm.Compile.Source
import ExprWasm.Files.FileTree
import ExprWasm.Number.Binary64

/-! The assembler that turns a text module into a binary one, as a program of the environment. -/

set_option autoImplicit false

namespace ExprWasm.Compile

open Files (FileTree Path)
open Number (Binary64)

inductive ProgramAnswer where
  | exited (status : Int) (output errorOutput : String)
  | timedOut
  | failed (failure : SystemFailure)
  deriving DecidableEq

structure Invocation where
  words : List String
  timeout : Binary64
  deriving DecidableEq

structure Workspace where
  files : FileTree
  assemblerAnswer : ProgramAnswer
  invocations : List Invocation := []
  trace : Failure → String := fun _ => "Traceback (most recent call last):\n"

structure Options where
  assemble : Bool := true
  assembler : String := "wat2wasm"
  /-- The seconds after which the assembler is given up. -/
  timeout : Binary64 := Binary64.nearest 60 1
  /-- The size of the pieces that files are read in. -/
  chunkSize : Nat := Source.standardChunkSize

structure Effect (α : Type) where
  outcome : Except Failure α
  workspace : Workspace
  events : List Event

def judgeAnswer (assembler command wat : String) :
    ProgramAnswer → Except Failure Unit × List Event
  | .exited status output errorOutput =>
      if status = 0 then (.ok (), [])
      else
        (.error
          (.assembler
            { summary := assembler ++ " failed for " ++ wat
              command := command
              output := output
              errorOutput := errorOutput
              status := some status }),
          [.assemblerExited assembler status])
  | .timedOut =>
      (.error (.assembler { summary := assembler ++ " timed out", command := command }), [])
  | .failed failure =>
      if failure.cause = .notFound then
        (.error
          (.assembler
            { summary := assembler ++ " not found - is it installed?", command := command }),
          [])
      else (.error (.system failure), [])

/-- Runs the assembler on a text module. The binary module has the same name with another suffix,
unless a path for it is given. -/
def assemble (options : Options) (workspace : Workspace) (wat : Path) (wasm : Option Path) :
    Effect Path :=
  match wasm.elim (wat.withSuffix ".wasm") .ok with
  | .error failure => ⟨.error failure, workspace, []⟩
  | .ok wasm =>
      let words := [options.assembler, wat.text, "-o", wasm.text]
      let command := " ".intercalate words
      let workspace :=
        { workspace with
          invocations := workspace.invocations ++ [⟨words, options.timeout⟩] }
      let (outcome, events) :=
        judgeAnswer options.assembler command wat.text workspace.assemblerAnswer
      ⟨outcome.map fun () => wasm, workspace, .assemblerStarted command :: events⟩

end ExprWasm.Compile
