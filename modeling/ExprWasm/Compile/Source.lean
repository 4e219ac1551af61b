import ExprWasm.Phrase.Program
import ExprWasm.Wat.Sink

/-! Modules from sources.

A module is generated only from a program without syntax errors. The three ways to ask for one
differ in what they do with diagnostics: `compileSource` returns them in its result, `compileToSink`
returns them and leaves the sink alone, and `compileText` fails with a report on them. -/

set_option autoImplicit false

namespace ExprWasm.Compile

open Phrase (Parser)
open ExprWasm.Tree (Function)

structure Logged (α : Type) where
  outcome : Except Failure α
  events : List Event

structure Program where
  functions : List Function
  diagnostics : List Diagnostic

namespace Program

def tree (program : Program) : Tree.Node :=
  Tree.unitOf program.functions

def emissionEvents (program : Program) : List Event :=
  program.functions.map fun function => .functionEmitted function.name

/-- What is logged of it until a line is refused, after so many were written. The first line opens
the module, and every function is logged when its own first line is due. -/
def emissionEventsWithin (program : Program) (written : Nat) : List Event :=
  (begun written program.functions).map fun function => .functionEmitted function.name
where
  begun : Nat → List Function → List Function
    | 0, _ => []
    | _, [] => []
    | left + 1, function :: rest =>
        function :: begun (left + 1 - (Wat.lines function.toNode).texts.length) rest

end Program

def parse (source : List Source.Chunk) : Logged Program :=
  let run := (Parser.ofSource source []).parse
  match run.outcome with
  | .ok () => ⟨.ok ⟨run.parser.functions, run.parser.diagnostics⟩, run.events⟩
  | .error failure => ⟨.error failure, run.events⟩

/-- What became of a source. There is a module exactly when there are no diagnostics. -/
structure Result where
  filename : String
  functions : List Function
  diagnostics : List Diagnostic
  moduleText : Option String
  /-- The binary module, if an assembler made one. -/
  binary : Option String := none

namespace Result

def succeeded (result : Result) : Bool :=
  result.moduleText.isSome

end Result

def unnamed : String := "<input>"

def compileSource (source : List Source.Chunk) (filename : String) : Logged Result :=
  let parsed := parse source
  match parsed.outcome with
  | .error failure => ⟨.error failure, parsed.events⟩
  | .ok program =>
      if program.diagnostics.isEmpty then
        let events := parsed.events ++ program.emissionEvents
        match Wat.render program.tree with
        | .error failure => ⟨.error failure, events⟩
        | .ok text =>
            ⟨.ok
              { filename := filename
                functions := program.functions
                diagnostics := []
                moduleText := some text },
              events⟩
      else
        ⟨.ok
          { filename := filename
            functions := program.functions
            diagnostics := program.diagnostics
            moduleText := none },
          parsed.events⟩

def compileToSink (source : List Source.Chunk) (sink : Wat.Sink) :
    Logged (List Diagnostic) × Wat.Sink :=
  let parsed := parse source
  match parsed.outcome with
  | .error failure => (⟨.error failure, parsed.events⟩, sink)
  | .ok program =>
      if program.diagnostics.isEmpty then
        match sink.writeTree program.tree with
        | (.ok (), filled) => (⟨.ok [], parsed.events ++ program.emissionEvents⟩, filled)
        | (.error failure, filled) =>
            let written := filled.writes.size - sink.writes.size
            (⟨.error failure, parsed.events ++ program.emissionEventsWithin written⟩, filled)
      else
        (⟨.ok program.diagnostics,
            parsed.events ++ [.generationSkipped program.diagnostics.length]⟩,
          sink)

def rejection? (diagnostics : List Diagnostic) : Option Failure :=
  if diagnostics.isEmpty then none
  else some (.rejected (Diagnostic.report diagnostics) diagnostics)

def compileText (source : List Source.Chunk) : Except Failure String :=
  match (parse source).outcome with
  | .error failure => .error failure
  | .ok program =>
      match rejection? program.diagnostics with
      | some failure => .error failure
      | none => Wat.render program.tree

end ExprWasm.Compile
