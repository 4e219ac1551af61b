import ExprWasm.Command.Run
import ExprWasm.Proofs.Compile.Delivery

/-! What carrying out a request comes to.

The content of the source, the place of the module and the answer of the assembler decide the
course. A source that is no text ends every request with the same failure. One with syntax errors
ends with them, unless only its tokens are asked for. Any other has a module, and a request for it
ends well if the module can be written and assembled. -/

set_option autoImplicit false

namespace ExprWasm.Command

open Compile (Options Program ProgramAnswer Result Workspace compileFile compileSource compileText
  judgeAnswer outputPath parse writeModule)
open Files (FileTree Path Place)
open Source (cut ofText standardChunkSize undecodable Utf8.Malformed Utf8.encode Utf8.malformed?)

/-! ### The content of the source -/

def Reads (content : List UInt8) (program : Program) : Prop :=
  ∃ text : String, Utf8.encode text.toList = content ∧
    (parse (ofText standardChunkSize text)).outcome = .ok program

section Content

variable {size : Nat} (positive : 0 < size) {content : List UInt8}

include positive

theorem reads_iff {program : Program} :
    Reads content program ↔ (parse (cut size content)).outcome = .ok program := by
  constructor
  · rintro ⟨text, rfl, parsed⟩
    rw [Compile.parse_encoded positive]
    exact parsed
  · intro parsed
    rcases (Compile.parse_cut_isOk_iff positive content).mp ⟨program, parsed⟩ with ⟨text, rfl⟩
    rw [Compile.parse_encoded positive] at parsed
    exact ⟨text, rfl, parsed⟩

theorem parse_malformed
    {malformed : Utf8.Malformed} (found : Utf8.malformed? content = some malformed) :
    (parse (cut size content)).outcome = .error (undecodable malformed) := by
  rcases Source.cut_eq_pieces size positive content with ⟨pieces, cuts, joined, nonempty⟩
  rw [cuts]
  rw [← joined] at found
  exact Compile.parse_of_malformed nonempty found

end Content

/-- A content is a text with a program or has a defect. -/
theorem content_cases (content : List UInt8) :
    (∃ program, Reads content program) ∨
      ∃ malformed, Utf8.malformed? content = some malformed := by
  cases found : Utf8.malformed? content with
  | some malformed => exact Or.inr ⟨malformed, rfl⟩
  | none =>
      rcases (Source.Utf8.malformed?_eq_none_iff content).mp found with ⟨text, encodes⟩
      rcases (Compile.text_compiles text "").1 with ⟨program, parsed⟩
      exact Or.inl ⟨program, text, encodes, parsed⟩

/-! ### What is raised -/

def Request.Compiles (request : Request) : Prop :=
  request.tokens = false ∧ request.tree = false

structure Produces (request : Request) (content : List UInt8) (output : Path) (text : String) :
    Prop where
  compiles : request.Compiles
  destined : outputPath request.input request.output = .ok output
  translated : compileText (cut standardChunkSize content) = .ok text

def assemblerCommand (request : Request) (output binary : Path) : String :=
  " ".intercalate [request.assembler, output.text, "-o", binary.text]

/-- A failure that ends a request: the content is no text, its module cannot be written, or the
assembler does not make a binary module of it. -/
inductive Raised (request : Request) (before : Workspace) (content : List UInt8) :
    Failure → Prop where
  | undecodable {malformed : Utf8.Malformed} (found : Utf8.malformed? content = some malformed) :
      Raised request before content (undecodable malformed)
  | unwritable {output : Path} {text : String} {failure : Failure}
      (produces : Produces request content output text)
      (refused : (before.files.write output (Utf8.encode text.toList)).1 = .error failure) :
      Raised request before content failure
  | unassembled {output binary : Path} {text : String} {failure : Failure}
      (produces : Produces request content output text)
      (written : (before.files.write output (Utf8.encode text.toList)).1 = .ok ())
      (wanted : request.assemble = true) (named : output.withSuffix ".wasm" = .ok binary)
      (refused : (judgeAnswer request.assembler (assemblerCommand request output binary)
        output.text before.assemblerAnswer).1 = .error failure) :
      Raised request before content failure

/-! ### The courses -/

def Request.options (request : Request) (size : Nat) : Options :=
  { assemble := request.assemble, assembler := request.assembler, chunkSize := size }

def Request.events (request : Request) (size : Nat) (before : Workspace) (content : List UInt8) :
    List Event :=
  if request.tokens then []
  else if request.tree then (parse (cut size content)).events
  else
    match outputPath request.input request.output with
    | .error _ => []
    | .ok output =>
        (compileFile (request.options size) before request.input (some output)).events

def Report.Fails (report : Report) (before : Workspace) (verbose : Bool) (events : List Event)
    (failure : Failure) : Prop :=
  ∃ output after, after.trace = before.trace ∧
    report = failed verbose output (logText verbose events) after failure

section Written

variable (options : Options) {before : Workspace} {output : Path} {text : String} (result : Result)

theorem writeModule_of_error
    {failure : Failure}
    (refused : (before.files.write output (Utf8.encode text.toList)).1 = .error failure) :
    writeModule options before output result text =
      ⟨.error failure,
        { before with files := (before.files.write output (Utf8.encode text.toList)).2 }, []⟩ := by
  unfold writeModule
  cases written : before.files.write output (Utf8.encode text.toList) with
  | mk outcome files =>
      rw [written] at refused
      cases refused
      rfl

variable (written : (before.files.write output (Utf8.encode text.toList)).1 = .ok ())

include written

theorem write_pair :
    before.files.write output (Utf8.encode text.toList) =
      (.ok (), (before.files.write output (Utf8.encode text.toList)).2) :=
  Prod.ext written rfl

theorem writeModule_of_unwanted (unwanted : options.assemble = false) :
    (writeModule options before output result text).outcome = .ok result ∧
      (writeModule options before output result text).workspace.files =
        (before.files.write output (Utf8.encode text.toList)).2 := by
  unfold writeModule
  rw [write_pair written]
  simp only [unwanted, Bool.false_eq_true, if_false, and_self]

theorem writeModule_of_wanted
    (wanted : options.assemble = true) {binary : Path}
    (named : output.withSuffix ".wasm" = .ok binary) :
    (writeModule options before output result text).outcome =
        (judgeAnswer options.assembler
          (" ".intercalate [options.assembler, output.text, "-o", binary.text]) output.text
          before.assemblerAnswer).1.map (fun _ => { result with binary := some binary.text }) ∧
      (writeModule options before output result text).workspace.files =
        (before.files.write output (Utf8.encode text.toList)).2 := by
  unfold writeModule
  rw [write_pair written]
  simp only [wanted, if_true, Compile.assemble, Option.elim_none, named, and_true]
  cases (judgeAnswer options.assembler _ output.text before.assemblerAnswer).1 with
  | error failure => rfl
  | ok => rfl

end Written

/-- A compilation leaves the trace of calls to the environment. -/
theorem compileFile_trace
    (options : Options) (before : Workspace) (input : Path) (output : Option Path) :
    (compileFile options before input output).workspace.trace = before.trace := by
  have assembled (workspace : Workspace) (wat : Path) (wasm : Option Path) :
      (Compile.assemble options workspace wat wasm).workspace.trace = workspace.trace := by
    unfold Compile.assemble
    split <;> rfl
  have written (destination : Path) (result : Result) (text : String) :
      (writeModule options before destination result text).workspace.trace = before.trace := by
    unfold writeModule
    split
    · rfl
    · simp only
      split
      · exact assembled _ _ _
      · rfl
  unfold compileFile
  split
  · rfl
  · split
    · rfl
    · simp only
      split
      · rfl
      · split
        · rfl
        · exact written _ _ _

section Compilation

variable {request : Request} {size : Nat} {before : Workspace} {output : Path}
  (destined : outputPath request.input request.output = .ok output)

include destined

theorem compile_of_error
    {failure : Failure}
    (fails : (compileFile (request.options size) before request.input (some output)).outcome =
      .error failure) :
    ∃ opening, compile request size before =
      failed request.verbose opening
        (logText request.verbose
          (compileFile (request.options size) before request.input (some output)).events)
        (compileFile (request.options size) before request.input (some output)).workspace
        failure := by
  unfold Request.options at fails ⊢
  simp only [compile, destined, fails]
  exact ⟨_, rfl⟩

theorem compile_of_diagnostics
    {result : Result} (unmade : result.moduleText = none)
    (ends : (compileFile (request.options size) before request.input (some output)).outcome =
      .ok result) :
    ∃ opening, compile request size before =
      ⟨.buildError, opening,
        logText request.verbose
          (compileFile (request.options size) before request.input (some output)).events ++
          diagnosticLines result.diagnostics,
        (compileFile (request.options size) before request.input (some output)).workspace⟩ := by
  unfold Request.options at ends ⊢
  simp only [compile, destined, ends, unmade]
  exact ⟨_, rfl⟩

theorem compile_of_module
    {result : Result} {text : String} (made : result.moduleText = some text)
    (ends : (compileFile (request.options size) before request.input (some output)).outcome =
      .ok result) :
    ∃ printed, compile request size before =
      ⟨.success, printed,
        logText request.verbose
          (compileFile (request.options size) before request.input (some output)).events,
        (compileFile (request.options size) before request.input (some output)).workspace⟩ := by
  unfold Request.options at ends ⊢
  simp only [compile, destined, ends, made]
  exact ⟨_, rfl⟩

variable (compiles : request.Compiles) (content : List UInt8)

include compiles

theorem events_of_compiles :
    request.events size before content =
      (compileFile (request.options size) before request.input (some output)).events := by
  simp only [Request.events, compiles.1, compiles.2, Bool.false_eq_true, if_false, destined]

end Compilation

theorem carryOut_of_compiles
    {request : Request} (compiles : request.Compiles) (size : Nat) (before : Workspace) :
    carryOut request size before = compile request size before := by
  rw [carryOut, compiles.1, compiles.2, if_neg Bool.false_ne_true, if_neg Bool.false_ne_true]

theorem fails_of_outcome
    {request : Request} {size : Nat} {before : Workspace} {content : List UInt8} {output : Path}
    {text : String} (produces : Produces request content output text) {failure : Failure}
    (fails : (compileFile (request.options size) before request.input (some output)).outcome =
      .error failure) :
    (carryOut request size before).Fails before request.verbose (request.events size before content)
        failure ∧
      (carryOut request size before).workspace =
        (compileFile (request.options size) before request.input (some output)).workspace := by
  rcases compile_of_error produces.destined fails with ⟨opening, reports⟩
  rw [carryOut_of_compiles produces.compiles, reports,
    events_of_compiles produces.destined produces.compiles]
  exact ⟨⟨opening, _, compileFile_trace _ _ _ _, rfl⟩, rfl⟩

section Courses

variable {request : Request} {size : Nat} (positive : 0 < size) {before : Workspace}
  {content : List UInt8} (held : before.files.Holds request.input content)

include held

theorem exists_output : ∃ output, outputPath request.input request.output = .ok output := by
  cases request.output with
  | some output => exact ⟨output, rfl⟩
  | none =>
      rcases held.admits with ⟨place, admits⟩
      exact Path.exists_withSuffix admits.named ".wat"

theorem compileFile_of_error
    {failure : Failure}
    (failed : (compileSource (cut size content) request.input.text).outcome = .error failure)
    (output : Path) :
    compileFile (request.options size) before request.input (some output) =
      ⟨.error failure, before,
        (compileSource (cut size content) request.input.text).events⟩ := by
  simp only [compileFile, Request.options, outputPath, Option.elim_some,
    FileTree.read_eq_ok_iff.mpr held, failed]

theorem compileFile_of_diagnostics
    {result : Result} (compiled :
      (compileSource (cut size content) request.input.text).outcome = .ok result)
    (unmade : result.moduleText = none) (output : Path) :
    compileFile (request.options size) before request.input (some output) =
      ⟨.ok result, before, (compileSource (cut size content) request.input.text).events⟩ := by
  simp only [compileFile, Request.options, outputPath, Option.elim_some,
    FileTree.read_eq_ok_iff.mpr held, compiled, unmade]

include positive

theorem carryOut_of_malformed
    {malformed : Utf8.Malformed} (found : Utf8.malformed? content = some malformed) :
    (carryOut request size before).Fails before request.verbose (request.events size before content)
        (undecodable malformed) ∧
      (carryOut request size before).workspace = before := by
  have reads := FileTree.read_eq_ok_iff.mpr held
  have parsed := parse_malformed positive found
  unfold carryOut Request.events
  cases request.tokens with
  | true =>
      simp only [if_true, listTokens, reads, Compile.incomplete_of_error parsed]
      exact ⟨⟨_, before, rfl, rfl⟩, rfl⟩
  | false =>
      cases request.tree with
      | true =>
          simp only [Bool.false_eq_true, if_false, if_true, printTree, reads, parsed]
          exact ⟨⟨_, before, rfl, rfl⟩, rfl⟩
      | false =>
          rcases exists_output held with ⟨output, destined⟩
          have ends := compileFile_of_error held (Compile.compileSource_of_error parsed _) output
          rcases compile_of_error destined (congrArg Compile.Effect.outcome ends) with
            ⟨opening, reports⟩
          simp only [Bool.false_eq_true, if_false, destined]
          rw [reports, ends]
          exact ⟨⟨opening, before, rfl, rfl⟩, rfl⟩

theorem carryOut_of_tokens
    (listed : request.tokens = true) {program : Program} (reads : Reads content program) :
    (carryOut request size before).status = .success ∧
      (carryOut request size before).workspace = before := by
  have complete := Compile.complete_of_program ((reads_iff positive).mp reads)
  have reports : ∃ rows, carryOut request size before = ⟨.success, rows, "", before⟩ := by
    simp only [carryOut, listed, if_true, listTokens, FileTree.read_eq_ok_iff.mpr held, complete]
    exact ⟨_, rfl⟩
  rcases reports with ⟨rows, reports⟩
  rw [reports]
  exact ⟨rfl, rfl⟩

/-- The tree is printed with its syntax errors, and so are those of a source that has no module. -/
theorem carryOut_of_program
    (unlisted : request.tokens = false) {program : Program} (reads : Reads content program)
    (shown : request.tree = true ∨ program.diagnostics ≠ []) :
    (carryOut request size before).status =
        (if program.diagnostics.isEmpty then .success else .buildError) ∧
      (carryOut request size before).workspace = before ∧
      request.events size before content = (parse (cut size content)).events ∧
      (carryOut request size before).errorOutput =
        logText request.verbose (parse (cut size content)).events ++
          diagnosticLines program.diagnostics := by
  have parsed := (reads_iff positive).mp reads
  unfold carryOut Request.events
  rw [unlisted, if_neg Bool.false_ne_true, if_neg Bool.false_ne_true]
  by_cases wanted : request.tree = true
  · rw [if_pos wanted, if_pos wanted]
    simp only [printTree, FileTree.read_eq_ok_iff.mpr held, parsed]
    cases program.diagnostics with
    | nil => exact ⟨rfl, rfl, trivial, String.append_empty.symm⟩
    | cons first others => exact ⟨rfl, rfl, trivial, rfl⟩
  · rw [if_neg wanted, if_neg wanted]
    have occupied : program.diagnostics.isEmpty = false :=
      List.isEmpty_eq_false_iff.mpr (shown.resolve_left wanted)
    have compiled : compileSource (cut size content) request.input.text =
        ⟨.ok ⟨request.input.text, program.functions, program.diagnostics, none, none⟩,
          (parse (cut size content)).events⟩ := by
      simp only [compileSource, parsed, occupied, Bool.false_eq_true, if_false]
    rcases exists_output held with ⟨output, destined⟩
    have ends := compileFile_of_diagnostics held (by rw [compiled]) rfl output
    rcases compile_of_diagnostics destined rfl (congrArg Compile.Effect.outcome ends) with
      ⟨opening, reports⟩
    rw [reports, destined, occupied]
    simp only
    rw [ends, compiled]
    exact ⟨rfl, rfl, rfl, rfl⟩

section Module

variable {output : Path} {text : String} (produces : Produces request content output text)

include produces

theorem compileFile_of_produces :
    ∃ result, Result.moduleText result = some text ∧
      (compileFile (request.options size) before request.input (some output)).outcome =
        (writeModule (request.options size) before output result text).outcome ∧
      (compileFile (request.options size) before request.input (some output)).workspace =
        (writeModule (request.options size) before output result text).workspace := by
  have sized : 0 < (request.options size).chunkSize := positive
  have destined : outputPath request.input (some output) = .ok output := rfl
  rcases Compile.compileFile_of_module sized held produces.translated destined with
    ⟨result, events, made, ends⟩
  rw [ends]
  exact ⟨result, made, rfl, rfl⟩

theorem carryOut_of_unwritable
    {failure : Failure}
    (refused : (before.files.write output (Utf8.encode text.toList)).1 = .error failure) :
    (carryOut request size before).Fails before request.verbose (request.events size before content)
        failure ∧
      (carryOut request size before).workspace =
        { before with files := (before.files.write output (Utf8.encode text.toList)).2 } := by
  rcases compileFile_of_produces positive held produces with ⟨result, _, ends, leaves⟩
  rw [writeModule_of_error _ result refused] at ends leaves
  rcases fails_of_outcome produces ends with ⟨fails, same⟩
  exact ⟨fails, same.trans leaves⟩

variable (written : (before.files.write output (Utf8.encode text.toList)).1 = .ok ())

include written

theorem carryOut_of_unassembled
    (wanted : request.assemble = true) {binary : Path}
    (named : output.withSuffix ".wasm" = .ok binary) {failure : Failure}
    (refused : (judgeAnswer request.assembler (assemblerCommand request output binary) output.text
      before.assemblerAnswer).1 = .error failure) :
    (carryOut request size before).Fails before request.verbose (request.events size before content)
        failure ∧
      (carryOut request size before).workspace.files =
        (before.files.write output (Utf8.encode text.toList)).2 := by
  rcases compileFile_of_produces positive held produces with ⟨result, _, ends, leaves⟩
  rcases writeModule_of_wanted (request.options size) result written wanted named with
    ⟨judged, changed⟩
  change _ = Except.map _ (judgeAnswer request.assembler (assemblerCommand request output binary)
    output.text before.assemblerAnswer).1 at judged
  rw [judged, refused] at ends
  rcases fails_of_outcome produces ends with ⟨fails, same⟩
  rw [same, leaves]
  exact ⟨fails, changed⟩

theorem carryOut_of_delivered
    (answered : request.assemble = true →
      ∃ output errorOutput, before.assemblerAnswer = .exited 0 output errorOutput) :
    (carryOut request size before).status = .success ∧
      (carryOut request size before).workspace.files =
        (before.files.write output (Utf8.encode text.toList)).2 ∧
      (carryOut request size before).errorOutput =
        logText request.verbose (request.events size before content) := by
  rcases compileFile_of_produces positive held produces with ⟨result, made, ends, leaves⟩
  have writes : ∃ final, Result.moduleText final = some text ∧
      (writeModule (request.options size) before output result text).outcome = .ok final ∧
      (writeModule (request.options size) before output result text).workspace.files =
        (before.files.write output (Utf8.encode text.toList)).2 := by
    cases wanted : request.assemble with
    | false =>
        exact ⟨result, made, writeModule_of_unwanted (request.options size) result written wanted⟩
    | true =>
        rcases FileTree.write_eq_ok_iff.mp (write_pair written) with ⟨place, admits, _, _⟩
        rcases Path.exists_withSuffix admits.named ".wasm" with ⟨binary, named⟩
        rcases writeModule_of_wanted (request.options size) result written wanted named with
          ⟨judged, changed⟩
        rw [(Compile.judgeAnswer_eq_ok_iff _ _ _ _).mpr (answered wanted)] at judged
        exact ⟨{ result with binary := some binary.text }, made, judged, changed⟩
  rcases writes with ⟨final, finished, succeeds, changed⟩
  rcases compile_of_module produces.destined finished (ends.trans succeeds) with ⟨printed, reports⟩
  rw [carryOut_of_compiles produces.compiles, reports,
    events_of_compiles produces.destined produces.compiles, leaves]
  exact ⟨rfl, changed, rfl⟩

end Module

end Courses

/-- What is left of the directory: all as it was, or with what was written of the module in it. -/
def Leaves (request : Request) (before : Workspace) (content : List UInt8) (after : Workspace) :
    Prop :=
  after = before ∨ ∃ output text, Produces request content output text ∧
    after.files = (before.files.write output (Utf8.encode text.toList)).2

inductive Course (request : Request) (before : Workspace) (content : List UInt8)
    (events : List Event) (report : Report) : Prop where
  | failed {failure : Failure} (raised : Raised request before content failure)
      (fails : report.Fails before request.verbose events failure)
      (leaves : Leaves request before content report.workspace)
  | listed {program : Program} (listed : request.tokens = true) (reads : Reads content program)
      (succeeds : report.status = .success) (kept : report.workspace = before)
  | shown {program : Program} (unlisted : request.tokens = false) (reads : Reads content program)
      (shown : request.tree = true ∨ program.diagnostics ≠ [])
      (ends : report.status = if program.diagnostics.isEmpty then .success else .buildError)
      (kept : report.workspace = before)
      (printed : report.errorOutput =
        logText request.verbose events ++ diagnosticLines program.diagnostics)
  | delivered {output : Path} {text : String} (produces : Produces request content output text)
      (written : before.files.write output (Utf8.encode text.toList) =
        (.ok (), report.workspace.files))
      (answered : request.assemble = true →
        ∃ output errorOutput, before.assemblerAnswer = .exited 0 output errorOutput)
      (succeeds : report.status = .success)
      (logged : report.errorOutput = logText request.verbose events)

/-- A source without syntax errors has a module, and there is a path for it. -/
theorem exists_produces
    {request : Request} {before : Workspace} {content : List UInt8} {program : Program}
    (held : before.files.Holds request.input content) (compiles : request.Compiles)
    (reads : Reads content program) (silent : program.diagnostics = []) :
    ∃ output text, Produces request content output text := by
  rcases exists_output held with ⟨output, destined⟩
  have parsed := (reads_iff (by decide : 0 < standardChunkSize)).mp reads
  exact ⟨output, _, compiles, destined,
    Compile.compileText_eq_ok_iff.mpr ⟨program, parsed, silent, rfl⟩⟩

section Course

variable {request : Request} {size : Nat} (positive : 0 < size) {before : Workspace}
  {content : List UInt8} (held : before.files.Holds request.input content)

include positive held

theorem course_of_raised {failure : Failure} (raised : Raised request before content failure) :
    Course request before content (request.events size before content)
      (carryOut request size before) := by
  cases raised with
  | undecodable found =>
      rcases carryOut_of_malformed positive held found with ⟨fails, kept⟩
      exact Course.failed (Raised.undecodable found) fails (Or.inl kept)
  | unwritable produces refused =>
      rcases carryOut_of_unwritable positive held produces refused with ⟨fails, left⟩
      exact Course.failed (Raised.unwritable produces refused) fails
        (Or.inr ⟨_, _, produces, congrArg Workspace.files left⟩)
  | unassembled produces written wanted named refused =>
      rcases carryOut_of_unassembled positive held produces written wanted named refused with
        ⟨fails, changed⟩
      exact Course.failed (Raised.unassembled produces written wanted named refused) fails
        (Or.inr ⟨_, _, produces, changed⟩)

theorem course_of_produces
    {output : Path} {text : String} (produces : Produces request content output text) :
    Course request before content (request.events size before content)
      (carryOut request size before) := by
  cases written : (before.files.write output (Utf8.encode text.toList)).1 with
  | error failure => exact course_of_raised positive held (Raised.unwritable produces written)
  | ok =>
      by_cases answered : request.assemble = true →
          ∃ output errorOutput, before.assemblerAnswer = .exited 0 output errorOutput
      · rcases carryOut_of_delivered positive held produces written answered with
          ⟨succeeds, changed, logged⟩
        have whole := write_pair written
        rw [← changed] at whole
        exact Course.delivered produces whole answered succeeds logged
      · rcases Classical.not_imp.mp answered with ⟨wanted, unanswered⟩
        rcases FileTree.write_eq_ok_iff.mp (write_pair written) with ⟨place, admits, _, _⟩
        rcases Path.exists_withSuffix admits.named ".wasm" with ⟨binary, named⟩
        cases judged : (judgeAnswer request.assembler (assemblerCommand request output binary)
            output.text before.assemblerAnswer).1 with
        | error failure =>
            exact course_of_raised positive held
              (Raised.unassembled produces written wanted named judged)
        | ok => exact absurd ((Compile.judgeAnswer_eq_ok_iff _ _ _ _).mp judged) unanswered

/-- There is no other way for a request to end. -/
theorem carryOut_course :
    Course request before content (request.events size before content)
      (carryOut request size before) := by
  rcases content_cases content with ⟨program, reads⟩ | ⟨malformed, found⟩
  · cases listed : request.tokens with
    | true =>
        rcases carryOut_of_tokens positive held listed reads with ⟨succeeds, kept⟩
        exact Course.listed listed reads succeeds kept
    | false =>
        by_cases shown : request.tree = true ∨ program.diagnostics ≠ []
        · rcases carryOut_of_program positive held listed reads shown with
            ⟨ends, kept, logged, printed⟩
          rw [← logged] at printed
          exact Course.shown listed reads shown ends kept printed
        · rcases not_or.mp shown with ⟨unprinted, silent⟩
          rcases exists_produces held ⟨listed, (Bool.not_eq_true _).mp unprinted⟩ reads
            (Classical.not_not.mp silent) with ⟨output, text, produces⟩
          exact course_of_produces positive held produces
  · exact course_of_raised positive held (Raised.undecodable found)

end Course

end ExprWasm.Command
