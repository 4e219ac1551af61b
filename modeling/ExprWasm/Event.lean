import ExprWasm.Diagnostic
import ExprWasm.Token.Kind

/-! The log of a compilation: what happened, in order. -/

set_option autoImplicit false

namespace ExprWasm

inductive Event where
  | diagnosed (diagnostic : Diagnostic)
  /-- After an error tokens were skipped up to one of the given kind. -/
  | recovered (skipped : Nat) (reached : Token.Kind)
  | definitionParsed (name : String)
  | sourceParsed (definitions diagnostics : Nat)
  | generationSkipped (diagnostics : Nat)
  | functionEmitted (name : String)
  | moduleWritten (size : Nat) (path : String)
  | assemblerStarted (command : String)
  | assemblerExited (assembler : String) (status : Int)
  deriving DecidableEq

namespace Event

def message : Event → String
  | diagnosed diagnostic => "line " ++ toString diagnostic.line ++ ": " ++ diagnostic.message
  | recovered skipped reached =>
      "Recovery skipped " ++ toString skipped ++ " tokens to " ++ reached.name
  | definitionParsed name => "Parsed definition '" ++ name ++ "'"
  | sourceParsed definitions diagnostics =>
      "Parsed " ++ toString definitions ++ " definitions, " ++ toString diagnostics ++
        " diagnostics"
  | generationSkipped diagnostics =>
      "Skipping code generation: " ++ toString diagnostics ++ " diagnostics"
  | functionEmitted name => "Emitting function '" ++ name ++ "'"
  | moduleWritten size path => "Wrote " ++ toString size ++ " bytes to " ++ path
  | assemblerStarted command => "Running assembler: " ++ command
  | assemblerExited assembler status =>
      assembler ++ " exited with status " ++ toString status

def isWarning : Event → Bool
  | assemblerExited .. => true
  | _ => false

/-- The line that an event leaves in the log, if any: all events with their level in a verbose log,
and otherwise the bare warnings. -/
def logLine? (verbose : Bool) (event : Event) : Option String :=
  if verbose then
    some ((if event.isWarning then "WARNING: " else "DEBUG: ") ++ event.message)
  else if event.isWarning then some event.message
  else none

end Event

end ExprWasm
