import ExprWasm.Command.Arguments
import ExprWasm.Compile.File
import ExprWasm.Text.ControlSequence
import ExprWasm.Tree.Printer

/-! The command: what it prints, the files it leaves behind and the status it exits with.

File names, and messages that come from elsewhere, are printed without control sequences. The log
keeps them. Token listings, outlines and syntax errors cannot hold any. -/

set_option autoImplicit false

namespace ExprWasm.Command

open Compile (Workspace Options)
open Files (Path)

inductive ExitStatus where
  | success
  /-- Syntax errors, a source that is not text, or an assembler that failed. -/
  | buildError
  /-- A command line that asks for nothing sensible, or a file that is not there. -/
  | invalidArguments
  | internalError
  deriving DecidableEq

namespace ExitStatus

def code : ExitStatus → UInt8
  | success => 0
  | buildError => 1
  | invalidArguments => 2
  | internalError => 3

end ExitStatus

structure Report where
  status : ExitStatus
  output : String
  errorOutput : String
  workspace : Workspace

def usageLine : String := "Usage: mlc [OPTIONS] INPUT_FILE\n"

def helpText : String :=
  usageLine ++
  "\n" ++
  "  Compile a minilang program to WebAssembly.\n" ++
  "\n" ++
  "  INPUT_FILE is the minilang source file to compile.\n" ++
  "\n" ++
  "  Examples:\n" ++
  "      mlc add.ml                   # Outputs add.wat and add.wasm\n" ++
  "      mlc add.ml -o out.wat        # Specify output file\n" ++
  "      mlc --no-assemble add.ml     # Text module only\n" ++
  "      mlc --ast add.ml             # Dump the syntax tree\n" ++
  "\n" ++
  "Options:\n" ++
  "  -o, --output FILE  Output text module (default: input.wat)\n" ++
  "  --no-assemble      Write the .wat file only; do not run the assembler\n" ++
  "  --assembler TEXT   Assembler used to produce the binary module  [default:\n" ++
  "                     wat2wasm]\n" ++
  "  --tokens           Print the token stream and exit (for debugging)\n" ++
  "  --ast              Print AST and exit (for debugging)\n" ++
  "  -v, --verbose      Verbose output\n" ++
  "  --version          Show the version and exit.\n" ++
  "  --help             Show this message and exit.\n"

def versionText : String := "mlc, version 1.0.0\n"

def printedLine (text : String) : String :=
  Text.withoutSequences text ++ "\n"

def asLines (texts : List String) : String :=
  String.join (texts.map fun text => text ++ "\n")

def logText (verbose : Bool) (events : List Event) : String :=
  asLines (events.filterMap (Event.logLine? verbose))

/-- How a failure is reported: the status and the text for the error output. Where the compiler is
at fault, the trace of its calls is shown on demand. -/
def failureReport (trace : String) (verbose : Bool) (failure : Failure) : ExitStatus × String :=
  let internal :=
    (ExitStatus.internalError,
      printedLine ("Internal error: " ++ failure.message) ++ if verbose then trace else "")
  match failure with
  | .internal _ => internal
  | .assembler _ => (.buildError, printedLine ("Assembler error: " ++ failure.message))
  | .undecodable .. | .rejected .. | .general _ =>
      (.buildError, printedLine ("Error: " ++ failure.message))
  | .system system =>
      if system.cause = .notFound || system.cause = .permission then
        (.invalidArguments, printedLine ("Error: " ++ failure.message))
      else internal
  | _ => internal

def diagnosticLines (diagnostics : List Diagnostic) : String :=
  asLines (diagnostics.map fun diagnostic => "SYNTAX ERROR: " ++ diagnostic.text)

def failed (verbose : Bool) (output errorOutput : String) (workspace : Workspace)
    (failure : Failure) : Report :=
  let (status, text) := failureReport (workspace.trace failure) verbose failure
  ⟨status, output, errorOutput ++ text, workspace⟩

def listTokens (request : Request) (chunkSize : Nat) (workspace : Workspace) : Report :=
  match workspace.files.read request.input with
  | .error failure => failed request.verbose "" "" workspace failure
  | .ok content =>
      let listing := (Token.Lexer.ofSource (Source.cut chunkSize content)).listing
      let rows := asLines (listing.tokens.map Token.Lexed.row)
      match listing.failure with
      | none => ⟨.success, rows, "", workspace⟩
      | some failure => failed request.verbose rows "" workspace failure

def printTree (request : Request) (chunkSize : Nat) (workspace : Workspace) : Report :=
  match workspace.files.read request.input with
  | .error failure => failed request.verbose "" "" workspace failure
  | .ok content =>
      let parsed := Compile.parse (Source.cut chunkSize content)
      let log := logText request.verbose parsed.events
      match parsed.outcome with
      | .error failure => failed request.verbose "" log workspace failure
      | .ok program =>
          let outline := "\n".intercalate (program.tree.outline 0) ++ "\n"
          if program.diagnostics.isEmpty then ⟨.success, outline, log, workspace⟩
          else ⟨.buildError, outline, log ++ diagnosticLines program.diagnostics, workspace⟩

def successText (request : Request) (output : Path) (result : Compile.Result) (text : String) :
    String :=
  (if request.verbose then
    printedLine ("Wrote " ++ toString text.length ++ " bytes to " ++ output.text) ++
      printedLine ("Parsed: " ++ toString result.functions.length ++ " definitions")
  else "") ++
    printedLine
      ("Compiled " ++ request.input.text ++ " -> " ++ output.text ++
        match result.binary with
        | some binary => " -> " ++ binary
        | none => "")

def compile (request : Request) (chunkSize : Nat) (workspace : Workspace) : Report :=
  match Compile.outputPath request.input request.output with
  | .error failure => failed request.verbose "" "" workspace failure
  | .ok output =>
      let options : Options :=
        { assemble := request.assemble, assembler := request.assembler, chunkSize := chunkSize }
      let opening :=
        if request.verbose then printedLine ("Compiling " ++ request.input.text ++ "...") else ""
      let compiled := Compile.compileFile options workspace request.input (some output)
      let log := logText request.verbose compiled.events
      match compiled.outcome with
      | .error failure => failed request.verbose opening log compiled.workspace failure
      | .ok result =>
          match result.moduleText with
          | none =>
              ⟨.buildError, opening, log ++ diagnosticLines result.diagnostics, compiled.workspace⟩
          | some text =>
              ⟨.success, opening ++ successText request output result text, log, compiled.workspace⟩

/-- Carries out a request: the list of tokens if it is asked for, or else the tree if that is, or
else the compilation. -/
def carryOut (request : Request) (chunkSize : Nat) (workspace : Workspace) : Report :=
  if request.tokens then listTokens request chunkSize workspace
  else if request.tree then printTree request chunkSize workspace
  else compile request chunkSize workspace

def usageReport (workspace : Workspace) (error : UsageError) : Report :=
  let usage := if error.showsUsage then usageLine ++ "Try 'mlc --help' for help.\n\n" else ""
  ⟨.invalidArguments, "", usage ++ printedLine ("Error: " ++ error.message), workspace⟩

/-- Runs the command with the given words. The only failure that goes without a report is that of
asking for a file. -/
def run (words : List String) (chunkSize : Nat) (workspace : Workspace) : Except Failure Report :=
  match readWords {} words with
  | .error error => .ok (usageReport workspace error)
  | .ok given =>
      match given.answer? with
      | some .version => .ok ⟨.success, versionText, "", workspace⟩
      | some _ => .ok ⟨.success, helpText, "", workspace⟩
      | none =>
          match request workspace.files given with
          | .error (.usage error) => .ok (usageReport workspace error)
          | .error (.failure failure) => .error failure
          | .ok request => .ok (carryOut request chunkSize workspace)

end ExprWasm.Command
