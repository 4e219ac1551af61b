import ExprWasm.Proofs.Compile.Completion

/-! The three ways to ask for a module agree.

They refuse the same sources with the same failure, report the same diagnostics for a program with
syntax errors, and make the same module of any other. A sink is written to in the last case only. -/

set_option autoImplicit false

namespace ExprWasm.Compile

open Source (Chunk Raises)
open Wat (Sink terminated)

section Answers

variable (source : List Chunk) (filename : String) (earlier : Array String)

structure Refused (failure : Failure) : Prop where
  raised : Raises source failure
  result : (compileSource source filename).outcome = .error failure
  delivery : (compileToSink source { writes := earlier }).1.outcome = .error failure
  sink : (compileToSink source { writes := earlier }).2 = { writes := earlier }
  text : compileText source = .error failure

structure Diagnosed (program : Program) : Prop where
  parsed : (parse source).outcome = .ok program
  broken : program.diagnostics ≠ []
  result : ∃ result, (compileSource source filename).outcome = .ok result ∧
    result.succeeded = false ∧ result.moduleText = none ∧ result.diagnostics = program.diagnostics
  delivery : (compileToSink source { writes := earlier }).1.outcome = .ok program.diagnostics
  sink : (compileToSink source { writes := earlier }).2 = { writes := earlier }
  text : compileText source =
    .error (.rejected (Diagnostic.report program.diagnostics) program.diagnostics)

structure Translated (program : Program) (lines : List String) : Prop where
  parsed : (parse source).outcome = .ok program
  silent : program.diagnostics = []
  emitted : Wat.allLines program.tree = .ok lines
  nonempty : String.join (terminated lines) ≠ ""
  result : ∃ result, (compileSource source filename).outcome = .ok result ∧
    result.succeeded = true ∧ result.moduleText = some (String.join (terminated lines)) ∧
    result.diagnostics = []
  delivery : (compileToSink source { writes := earlier }).1.outcome = .ok []
  sink : ∃ writes, String.join writes = String.join (terminated lines) ∧
    (compileToSink source { writes := earlier }).2 = { writes := earlier ++ writes.toArray }
  text : compileText source = .ok (String.join (terminated lines))

variable {source}

theorem refused {failure : Failure} (failed : (parse source).outcome = .error failure)
    (raised : Raises source failure) : Refused source filename earlier failure := by
  constructor
  case raised => exact raised
  case text =>
    unfold compileText
    rw [failed]
  all_goals
    simp only [compileSource, compileToSink, failed]

theorem diagnosed {program : Program} (parsed : (parse source).outcome = .ok program)
    (broken : program.diagnostics ≠ []) : Diagnosed source filename earlier program := by
  have occupied : program.diagnostics.isEmpty = false := List.isEmpty_eq_false_iff.mpr broken
  constructor
  case parsed => exact parsed
  case broken => exact broken
  case result =>
    refine ⟨⟨filename, program.functions, program.diagnostics, none, none⟩, ?_, rfl, rfl, rfl⟩
    simp only [compileSource, parsed, occupied]
    rfl
  case text =>
    simp only [compileText, parsed, rejection?, occupied]
    rfl
  all_goals
    simp only [compileToSink, parsed, occupied]
    rfl

theorem translated {program : Program} (parsed : (parse source).outcome = .ok program)
    (silent : program.diagnostics = []) :
    Translated source filename earlier program (Wat.lines program.tree).texts := by
  have complete := program_emittable parsed
  have written := Wat.writeTree_complete complete earlier
  have rendered := Wat.render_complete complete
  constructor
  case parsed => exact parsed
  case silent => exact silent
  case emitted => exact Wat.allLines_complete complete
  case nonempty =>
    obtain ⟨rest, opened⟩ := Wat.lines_unit program.functions
    rw [Program.tree, opened, Ne, ← String.toList_inj]
    simp [terminated, String.join_cons]
  case result =>
    refine ⟨⟨filename, program.functions, [], some _, none⟩, ?_, rfl, rfl, rfl⟩
    simp only [compileSource, parsed, silent, rendered, List.isEmpty_nil, if_true]
  case delivery =>
    simp only [compileToSink, parsed, silent, written, List.isEmpty_nil, if_true]
  case sink =>
    refine ⟨_, rfl, ?_⟩
    simp only [compileToSink, parsed, silent, written, List.isEmpty_nil, if_true]
  case text =>
    simp only [compileText, parsed, rejection?, silent, rendered, List.isEmpty_nil, if_true]

end Answers

/-- Whatever a source holds and whatever was written to the sink before, the three ways to ask for
its module agree: they all fail, they all report the syntax errors, or they all make one module. -/
theorem entryPoints_agree (source : List Chunk) (filename : String) (earlier : Array String) :
    (∃ failure, Refused source filename earlier failure) ∨
      (∃ program, Diagnosed source filename earlier program) ∨
      ∃ program lines, Translated source filename earlier program lines := by
  rcases parse_cases source with ⟨program, parsed⟩ | ⟨failure, failed, raised⟩
  · by_cases silent : program.diagnostics = []
    · exact Or.inr (Or.inr ⟨program, _, translated filename earlier parsed silent⟩)
    · exact Or.inr (Or.inl ⟨program, diagnosed filename earlier parsed silent⟩)
  · exact Or.inl ⟨failure, refused filename earlier failed raised⟩

end ExprWasm.Compile
