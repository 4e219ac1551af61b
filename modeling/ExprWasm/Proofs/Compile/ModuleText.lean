import Mathlib
import ExprWasm.Proofs.Compile.Delivery
import ExprWasm.Proofs.Wat.Emission
import ExprWasm.Proofs.Wat.Layout

/-! The text of a module tells what it was made from.

Its lines lay out the definitions of the source in their order, and two sources with the same text
have the same heads, with the same instructions for each of them. -/

set_option autoImplicit false

namespace ExprWasm.Compile

open Source (Chunk)
open Token (Lexer)
open Phrase (Defines)
open ExprWasm.Tree (Function)
open Text (linesOf)
open Wat (BalancedText FunctionText WellSpelled functionsOf moduleLines terminated)

theorem program_wellSpelled
    {source : List Chunk} {program : Program} (parsed : (parse source).outcome = .ok program) :
    ∀ text ∈ program.functions.map FunctionText.ofFunction, WellSpelled text := by
  intro text member
  rcases List.mem_map.mp member with ⟨function, inside, rfl⟩
  rcases program_named parsed function inside with ⟨head, body⟩
  exact ⟨head, Wat.body_instructions body⟩

theorem result_of_program
    {source : List Chunk} {filename : String} {result : Result}
    (compiled : (compileSource source filename).outcome = .ok result) :
    ∃ program, (parse source).outcome = .ok program ∧ result.functions = program.functions ∧
      result.diagnostics = program.diagnostics ∧
      result.moduleText =
        if program.diagnostics.isEmpty then
          some (String.join (terminated (Wat.lines program.tree).texts))
        else none := by
  rcases parse_cases source with ⟨program, parsed⟩ | ⟨failure, failed, _⟩
  · rw [compileSource_of_program parsed] at compiled
    cases compiled
    exact ⟨program, parsed, rfl, rfl, rfl⟩
  · simp only [compileSource, failed] at compiled
    cases compiled

def laidOut (functions : List Function) : String :=
  String.join (terminated (moduleLines (functions.map FunctionText.ofFunction)))

/-- Without diagnostics there is a text, and it lays out the functions. -/
theorem moduleText_of_silent
    {source : List Chunk} {filename : String} {result : Result}
    (compiled : (compileSource source filename).outcome = .ok result)
    (silent : result.diagnostics = []) :
    result.moduleText = some (laidOut result.functions) ∧
      (∀ text ∈ result.functions.map FunctionText.ofFunction, WellSpelled text) ∧
      ∃ tokens ending, (Lexer.ofSource source).listing.tokens = tokens ++ [ending] ∧
        ending.kind = .endOfInput ∧ Defines tokens result.functions := by
  rcases result_of_program compiled with ⟨program, parsed, functions, diagnostics, generated⟩
  rw [diagnostics] at silent
  rw [functions]
  refine ⟨?_, program_wellSpelled parsed, program_defined parsed silent⟩
  rw [generated, silent, Program.tree, Wat.lines_module (program_bodies parsed)]
  rfl

theorem silent_of_moduleText
    {source : List Chunk} {filename : String} {result : Result} {text : String}
    (compiled : (compileSource source filename).outcome = .ok result)
    (generated : result.moduleText = some text) : result.diagnostics = [] := by
  rcases result_of_program compiled with ⟨program, parsed, functions, diagnostics, same⟩
  rw [generated] at same
  rw [diagnostics]
  cases silent : program.diagnostics with
  | nil => rfl
  | cons first later =>
      rw [silent] at same
      cases same

/-- A source without diagnostics has a module. Its parentheses are balanced. Its lines open it, give
the head, the body and the end of each function in the order of the definitions in the source,
export the functions in the same order, and close it. The heads and the instructions are read off
the text again, so every other source with this text has the same ones. -/
theorem moduleText_unambiguous
    (source : List Chunk) (filename : String) (result : Result)
    (compiled : (compileSource source filename).outcome = .ok result)
    (silent : result.diagnostics = []) :
    ∃ text, result.moduleText = some text ∧ BalancedText text ∧
      text = String.join (terminated (linesOf text)) ∧
      linesOf text = moduleLines (result.functions.map FunctionText.ofFunction) ∧
      (∃ tokens ending, (Lexer.ofSource source).listing.tokens = tokens ++ [ending] ∧
        ending.kind = .endOfInput ∧ Defines tokens result.functions) ∧
      functionsOf (linesOf text) = result.functions.map FunctionText.ofFunction ∧
      ∀ other otherName otherResult, (compileSource other otherName).outcome = .ok otherResult →
        otherResult.moduleText = some text →
        otherResult.functions.map FunctionText.ofFunction =
          result.functions.map FunctionText.ofFunction := by
  have recovered {source : List Chunk} {filename : String} {result : Result}
      (compiled : (compileSource source filename).outcome = .ok result)
      (silent : result.diagnostics = []) :
      functionsOf (linesOf (laidOut result.functions)) =
        result.functions.map FunctionText.ofFunction := by
    have spelled := (moduleText_of_silent compiled silent).2.1
    rw [laidOut, Wat.linesOf_module spelled, Wat.functionsOf_moduleLines spelled]
  rcases moduleText_of_silent compiled silent with ⟨generated, spelled, defined⟩
  have split := Wat.linesOf_module spelled
  refine ⟨laidOut result.functions, generated, Wat.module_nests spelled 0, ?_, split, defined,
    recovered compiled silent, ?_⟩
  · rw [laidOut, split]
  · intro other otherName otherResult otherCompiled same
    have otherSilent := silent_of_moduleText otherCompiled same
    rw [(moduleText_of_silent otherCompiled otherSilent).1] at same
    rw [← recovered otherCompiled otherSilent, ← recovered compiled silent, Option.some.inj same]

/-- Two definitions with the same parameters in different orders, the second of which calls the
first. -/
def differenceSource : List Chunk :=
  Source.ofText Source.standardChunkSize "def minus(x y) x-y;def swapped(y x) minus(x, y);"

theorem differenceSource_unambiguous :
    ∃ result, (compileSource differenceSource "difference.ml").outcome = .ok result ∧
      result.diagnostics = [] ∧
      ∃ text, result.moduleText = some text ∧ BalancedText text ∧
        functionsOf (linesOf text) =
          [⟨⟨"minus", ["x", "y"]⟩, ["local.get $x", "local.get $y", "f32.sub"]⟩,
            ⟨⟨"swapped", ["y", "x"]⟩, ["local.get $x", "local.get $y", "call $minus"]⟩] := by
  have parsed : (parse differenceSource).outcome =
      .ok ⟨[⟨⟨"minus", ["x", "y"]⟩, .binary .minus (.reference "x") (.reference "y")⟩,
        ⟨⟨"swapped", ["y", "x"]⟩, .call "minus" [.reference "x", .reference "y"]⟩], []⟩ := by cbv
  have compiled := compileSource_of_program parsed "difference.ml"
  rcases moduleText_unambiguous _ "difference.ml" _ compiled rfl with
    ⟨text, generated, balanced, _, _, _, recovered, _⟩
  refine ⟨_, compiled, rfl, text, generated, balanced, ?_⟩
  rw [recovered]
  simp only [List.map_cons, List.map_nil, FunctionText.ofFunction, Wat.lines_eq_emission]
  rfl

end ExprWasm.Compile
