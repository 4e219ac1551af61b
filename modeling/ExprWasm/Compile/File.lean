import ExprWasm.Compile.Assembler

/-! The compilation of files. -/

set_option autoImplicit false

namespace ExprWasm.Compile

open Files (Path)

/-- Where the module of a source file goes: to the given path, or next to the source with the suffix
`.wat`. -/
def outputPath (input : Path) (output : Option Path) : Except Failure Path :=
  output.elim (input.withSuffix ".wat") .ok

def writeModule (options : Options) (workspace : Workspace) (output : Path)
    (result : Result) (text : String) : Effect Result :=
  match workspace.files.write output (Source.Utf8.encode text.toList) with
  | (.error failure, files) => ⟨.error failure, { workspace with files := files }, []⟩
  | (.ok (), files) =>
      let workspace := { workspace with files := files }
      let written := Event.moduleWritten text.length output.text
      if options.assemble then
        let assembled := assemble options workspace output none
        ⟨assembled.outcome.map fun wasm => { result with binary := some wasm.text },
          assembled.workspace, written :: assembled.events⟩
      else ⟨.ok result, workspace, [written]⟩

/-- Compiles a file. Nothing is written unless the source is without errors. -/
def compileFile (options : Options) (workspace : Workspace) (input : Path) (output : Option Path) :
    Effect Result :=
  match outputPath input output with
  | .error failure => ⟨.error failure, workspace, []⟩
  | .ok output =>
      match workspace.files.read input with
      | .error failure => ⟨.error failure, workspace, []⟩
      | .ok content =>
          let compiled := compileSource (Source.cut options.chunkSize content) input.text
          match compiled.outcome with
          | .error failure => ⟨.error failure, workspace, compiled.events⟩
          | .ok result =>
              match result.moduleText with
              | none => ⟨.ok result, workspace, compiled.events⟩
              | some text =>
                  let written := writeModule options workspace output result text
                  { written with events := compiled.events ++ written.events }

end ExprWasm.Compile
