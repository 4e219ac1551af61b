import ExprWasm.Command.Run

/-! The command as a program.

The files that the command line names are read beforehand, the command is run on what was found, and
what it left behind is carried out. No assembler can be started from here, so it counts as
missing. -/

set_option autoImplicit false

namespace ExprWasm.Command

open Compile (Workspace)
open Files (FileTree Entry Path Place)

def probe (path : String) : IO (Option Entry) := do
  try
    let content ← IO.FS.readBinFile path
    return some (.file content.toList)
  catch
    | .noFileOrDirectory .. => return none
    | .inappropriateType .. => return some .directory
    | _ => return none

def survey (files : FileTree) (path : Path) : IO FileTree := do
  let mut files := files
  for depth in List.range path.parts.length do
    let part : Path := { path with parts := path.parts.take (depth + 1) }
    if let some entry ← probe part.text then
      files := files.add part entry
  return files

/-- The files that a command line is about: those it names, and those that are written by
default. -/
def filesOf (given : Given) : List Path :=
  let named := given.files ++ (given.value? .output).toList
  let paths := named.map Path.ofText
  paths ++ paths.filterMap fun path =>
    match path.withSuffix ".wat" with
    | .ok output => some output
    | .error _ => none

def surveyWords (words : List String) : IO FileTree := do
  match readWords {} words with
  | .error _ => return {}
  | .ok given => (filesOf given).foldlM survey {}

end ExprWasm.Command

open ExprWasm in
def main (words : List String) : IO UInt32 := do
  let files ← Command.surveyWords words
  let workspace : Compile.Workspace :=
    { files := files, assemblerAnswer := .failed (.notFound "wat2wasm") }
  match Command.run words Source.standardChunkSize workspace with
  | .error failure =>
      (← IO.getStderr).putStrLn failure.message
      return 1
  | .ok report =>
      for (place, content) in files.newFiles report.workspace.files do
        IO.FS.writeBinFile ("/".intercalate place) (ByteArray.mk content.toArray)
      let output ← IO.getStdout
      output.putStr report.output
      output.flush
      (← IO.getStderr).putStr report.errorOutput
      return report.status.code.toUInt32
