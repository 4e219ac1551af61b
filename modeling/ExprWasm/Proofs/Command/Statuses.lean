import ExprWasm.Proofs.Command.Courses
import ExprWasm.Proofs.Compile.Log
import ExprWasm.Proofs.Files.Spelling

/-! The status of a command, the files it changes and the syntax errors it prints.

All three follow from the content of the source, the place for the module and the answer of the
assembler. The status is zero for a module that was delivered; one for what is wrong with the source
or was held against the assembler; two for a file that is missing or forbidden; and three for the
rest. -/

set_option autoImplicit false

namespace ExprWasm.Command

open Compile (Program ProgramAnswer Workspace compileText judgeAnswer outputPath parse sourceAt)
open Files (Entry FileTree Path Place)
open Source (cut standardChunkSize Utf8.encode Utf8.malformed?)
open Text (Unbroken linesOf)

/-! ### Statuses of failures -/

section Fails

variable {report : Report} {before : Workspace} {verbose : Bool} {events : List Event}
  {failure : Failure} (fails : report.Fails before verbose events failure)

include fails

theorem Report.Fails.status :
    report.status = (failureReport (before.trace failure) verbose failure).1 := by
  rcases fails with ⟨output, after, same, rfl⟩
  rw [← same]
  rfl

theorem Report.Fails.errorOutput :
    report.errorOutput =
      logText verbose events ++ (failureReport (before.trace failure) verbose failure).2 := by
  rcases fails with ⟨output, after, same, rfl⟩
  rw [← same]
  rfl

end Fails

theorem ExitStatus.code_eq_zero_iff (status : ExitStatus) :
    status.code = 0 ↔ status = .success := by
  cases status <;> decide

theorem Report.Fails.unsuccessful
    {report : Report} {before : Workspace} {verbose : Bool} {events : List Event}
    {failure : Failure}
    (fails : report.Fails before verbose events failure) : report.status.code ≠ 0 := by
  rw [Ne, ExitStatus.code_eq_zero_iff, fails.status]
  cases failure with
  | system system =>
      simp only [failureReport]
      split <;> nofun
  | _ => nofun

theorem place_error
    {files : FileTree} {path : Path} {failure : Failure}
    (failed : files.place path = .error failure) :
    failure = .nullInPath ∨ ∃ system, failure = .system system := by
  unfold FileTree.place at failed
  split at failed
  · exact Or.inl (Except.error.inj failed).symm
  · split at failed
    · exact Or.inr ⟨_, (Except.error.inj failed).symm⟩
    · cases failed

/-- The failures of writing a file. -/
theorem write_error
    {files : FileTree} {path : Path} {content : List UInt8} {failure : Failure}
    (refused : (files.write path content).1 = .error failure) :
    failure = .nullInPath ∨ ∃ system, failure = .system system := by
  unfold FileTree.write at refused
  split at refused
  · rename_i failed
    cases refused
    exact place_error failed
  · split at refused
    · exact Or.inr ⟨_, (Except.error.inj refused).symm⟩
    · split at refused
      · cases refused
      · exact Or.inr ⟨_, (Except.error.inj refused).symm⟩
      · exact Or.inr ⟨_, (Except.error.inj refused).symm⟩

inductive Blamed : ProgramAnswer → Prop where
  | refuses {status : Int} (nonzero : status ≠ 0) (output errorOutput : String) :
      Blamed (.exited status output errorOutput)
  | slow : Blamed .timedOut
  | missing {system : SystemFailure} (notFound : system.cause = .notFound) :
      Blamed (.failed system)

theorem judgeAnswer_error
    {assembler command wat : String} {answer : ProgramAnswer} {failure : Failure}
    (refused : (judgeAnswer assembler command wat answer).1 = .error failure) :
    (Blamed answer ∧ ∃ blamed, failure = .assembler blamed) ∨
      ∃ system, answer = .failed system ∧ system.cause ≠ .notFound ∧ failure = .system system := by
  unfold judgeAnswer at refused
  cases answer with
  | exited status output errorOutput =>
      by_cases zero : status = 0
      · simp only [zero, if_true] at refused
        cases refused
      · simp only [zero, if_false] at refused
        exact Or.inl ⟨Blamed.refuses zero _ _, _, (Except.error.inj refused).symm⟩
  | timedOut => exact Or.inl ⟨Blamed.slow, _, (Except.error.inj refused).symm⟩
  | failed system =>
      by_cases missing : system.cause = .notFound
      · simp only [missing, if_true] at refused
        exact Or.inl ⟨Blamed.missing missing, _, (Except.error.inj refused).symm⟩
      · simp only [missing, if_false] at refused
        exact Or.inr ⟨system, rfl, missing, (Except.error.inj refused).symm⟩

theorem judgeAnswer_of_blamed
    {answer : ProgramAnswer} (blamed : Blamed answer) (assembler command wat : String) :
    ∃ failure, (judgeAnswer assembler command wat answer).1 = .error (.assembler failure) := by
  cases blamed with
  | refuses nonzero output errorOutput =>
      simp only [judgeAnswer, nonzero, if_false]
      exact ⟨_, rfl⟩
  | slow => exact ⟨_, rfl⟩
  | missing notFound =>
      simp only [judgeAnswer, notFound, if_true]
      exact ⟨_, rfl⟩

/-! ### What was raised -/

section Raised

variable {request : Request} {before : Workspace} {content : List UInt8} {failure : Failure}

theorem Raised.cases (raised : Raised request before content failure) :
    (∃ offset reason, failure = .undecodable offset reason) ∨
      (∃ blamed, failure = .assembler blamed) ∨ (∃ system, failure = .system system) ∨
      failure = .nullInPath := by
  cases raised with
  | undecodable found => exact Or.inl ⟨_, _, rfl⟩
  | unwritable produces refused =>
      rcases write_error refused with null | ⟨system, same⟩
      · exact Or.inr (Or.inr (Or.inr null))
      · exact Or.inr (Or.inr (Or.inl ⟨system, same⟩))
  | unassembled produces written wanted named refused =>
      rcases judgeAnswer_error refused with ⟨_, blamed⟩ | ⟨system, _, _, same⟩
      · exact Or.inr (Or.inl blamed)
      · exact Or.inr (Or.inr (Or.inl ⟨system, same⟩))

theorem Raised.fails
    (raised : Raised request before content failure) {size : Nat} (positive : 0 < size)
    (held : before.files.Holds request.input content) :
    (carryOut request size before).Fails before request.verbose (request.events size before content)
      failure := by
  cases raised with
  | undecodable found => exact (carryOut_of_malformed positive held found).1
  | unwritable produces refused => exact (carryOut_of_unwritable positive held produces refused).1
  | unassembled produces written wanted named refused =>
      exact (carryOut_of_unassembled positive held produces written wanted named refused).1

end Raised

theorem Reads.unique
    {content : List UInt8} {program other : Program} (reads : Reads content program)
    (also : Reads content other) : program = other := by
  have standard : 0 < standardChunkSize := by decide
  have parsed := (reads_iff standard).mp reads
  rw [(reads_iff standard).mp also] at parsed
  exact (Except.ok.inj parsed).symm

theorem Reads.malformed?
    {content : List UInt8} {program : Program} (reads : Reads content program) :
    Utf8.malformed? content = none := by
  rcases reads with ⟨text, encodes, _⟩
  exact (Source.Utf8.malformed?_eq_none_iff content).mpr ⟨text, encodes⟩

section Produces

variable {request : Request} {content : List UInt8} {output : Path} {text : String}
  (produces : Produces request content output text)

include produces

theorem Produces.reads : ∃ program, Reads content program ∧ program.diagnostics = [] := by
  rcases Compile.compileText_eq_ok_iff.mp produces.translated with ⟨program, parsed, silent, _⟩
  exact ⟨program, (reads_iff (by decide)).mpr parsed, silent⟩

theorem Produces.unique
    {elsewhere : Path} {other : String} (also : Produces request content elsewhere other) :
    output = elsewhere ∧ text = other := by
  have sameOutput := produces.destined
  have sameText := produces.translated
  rw [also.destined] at sameOutput
  rw [also.translated] at sameText
  exact ⟨(Except.ok.inj sameOutput).symm, (Except.ok.inj sameText).symm⟩

end Produces

/-! ### Lines that report syntax errors -/

def isSyntaxError (line : String) : Bool :=
  "SYNTAX ERROR:".toList.isPrefixOf line.toList

def syntaxErrorLine (diagnostic : Diagnostic) : String :=
  "SYNTAX ERROR: " ++ diagnostic.text

theorem isSyntaxError_syntaxErrorLine (diagnostic : Diagnostic) :
    isSyntaxError (syntaxErrorLine diagnostic) = true := by
  change isSyntaxError ("SYNTAX ERROR: " ++ diagnostic.text) = true
  rw [isSyntaxError, String.toList_append]
  rfl

section Printed

variable {source : List Source.Chunk} {program : Program}
  (parsed : (parse source).outcome = .ok program) (verbose : Bool)

include parsed

theorem logLine_plain
    {line : String} (member : line ∈ (parse source).events.filterMap (Event.logLine? verbose)) :
    Unbroken line ∧ isSyntaxError line = false := by
  rcases List.mem_filterMap.mp member with ⟨event, logged, shown⟩
  rcases Compile.event_unbroken parsed logged with ⟨noWarning, unbroken⟩
  unfold Event.logLine? at shown
  rw [noWarning] at shown
  cases verbose with
  | false => cases shown
  | true =>
      cases shown
      refine ⟨Unbroken.append (by decide) unbroken, ?_⟩
      change isSyntaxError ("DEBUG: " ++ event.message) = false
      rw [isSyntaxError, String.toList_append]
      rfl

theorem syntaxErrors_printed :
    (linesOf (logText verbose (parse source).events ++ diagnosticLines program.diagnostics)).filter
        isSyntaxError =
      program.diagnostics.map syntaxErrorLine := by
  have diagnosed : ∀ line ∈ program.diagnostics.map syntaxErrorLine, Unbroken line := by
    intro line member
    rcases List.mem_map.mp member with ⟨diagnostic, inside, rfl⟩
    exact Unbroken.append (by decide) (Compile.diagnostic_unbroken parsed inside)
  have errors : linesOf (diagnosticLines program.diagnostics) =
      program.diagnostics.map syntaxErrorLine := by
    have lines := Text.linesOf_join diagnosed ""
    rw [String.append_empty] at lines
    exact lines.trans (List.append_nil _)
  have log := Text.linesOf_join (fun line member => (logLine_plain parsed verbose member).1)
    (diagnosticLines program.diagnostics)
  rw [errors] at log
  have others : ((parse source).events.filterMap (Event.logLine? verbose)).filter isSyntaxError =
      [] := by
    rw [List.filter_eq_nil_iff]
    intro line member
    rw [(logLine_plain parsed verbose member).2]
    nofun
  have all : (program.diagnostics.map syntaxErrorLine).filter isSyntaxError =
      program.diagnostics.map syntaxErrorLine := by
    rw [List.filter_eq_self]
    intro line member
    rcases List.mem_map.mp member with ⟨diagnostic, _, rfl⟩
    exact isSyntaxError_syntaxErrorLine diagnostic
  rw [logText, asLines, log, List.filter_append, others, all, List.nil_append]

end Printed

/-! ### The conclusion of a request -/

structure Concludes (request : Request) (events : List Event) (before : Workspace)
    (content : List UInt8) (report : Report) : Prop where
  unchanged : ¬ (request.Compiles ∧ ∃ program, Reads content program ∧ program.diagnostics = []) →
    report.workspace = before
  confined : ∀ place, report.workspace.files.entry? place ≠ before.files.entry? place →
    ∃ output, outputPath request.input request.output = .ok output ∧
      before.files.place output = .ok place
  success : request.Compiles →
    (report.status.code = 0 ↔
      (∀ failure, ¬ Raised request before content failure) ∧
      ∃ output text, outputPath request.input request.output = .ok output ∧
        compileText (cut standardChunkSize content) = .ok text ∧
        report.workspace.files.Holds output (Utf8.encode text.toList) ∧
        (request.assemble = true →
          ∃ output errorOutput, before.assemblerAnswer = .exited 0 output errorOutput))
  undecodable : (¬ ∃ text : String, Utf8.encode text.toList = content) → report.status.code = 1
  diagnosed : request.tokens = false → ∀ program, Reads content program →
    program.diagnostics ≠ [] → report.status.code = 1
  assembler : ∀ failure, Raised request before content (.assembler failure) →
    report.status.code = 1
  missing : ∀ failure, Raised request before content (.system failure) →
    failure.cause = .notFound ∨ failure.cause = .permission → report.status.code = 2
  other : ∀ failure, Raised request before content failure →
    (∀ offset reason, failure ≠ .undecodable offset reason) →
    (∀ blamed, failure ≠ .assembler blamed) →
    (∀ system, failure = .system system →
      system.cause ≠ .notFound ∧ system.cause ≠ .permission) →
    report.status.code = 3
  unraised : (∀ failure, ¬ Raised request before content failure) →
    (request.tokens = true ∨ ∃ program, Reads content program ∧ program.diagnostics = []) →
    report.status.code = 0
  blamed : ∀ output text, Produces request content output text →
    (before.files.write output (Utf8.encode text.toList)).1 = .ok () → request.assemble = true →
    ((∃ failure, Raised request before content (.assembler failure)) ↔
      Blamed before.assemblerAnswer)
  /-- With or without a tree the log is followed by one line for each syntax error, in order, and
  then by nothing but the report of a failure, if there is one. -/
  printed : request.tokens = false → ∀ program, Reads content program →
    (∀ failure, Raised request before content failure →
      report.errorOutput =
        logText request.verbose events ++ asLines (program.diagnostics.map syntaxErrorLine) ++
          (failureReport (before.trace failure) request.verbose failure).2) ∧
    ((∀ failure, ¬ Raised request before content failure) →
      report.errorOutput =
        logText request.verbose events ++ asLines (program.diagnostics.map syntaxErrorLine))
  /-- Where there is a tree or a syntax error, no other line looks like one of these. -/
  apart : request.tokens = false → ∀ program, Reads content program →
    request.tree = true ∨ program.diagnostics ≠ [] →
    (linesOf report.errorOutput).filter isSyntaxError = program.diagnostics.map syntaxErrorLine

/-- Nothing is raised by a source with syntax errors, nor when its tree is asked for. -/
theorem Raised.produces
    {request : Request} {before : Workspace} {content : List UInt8} {failure : Failure}
    (raised : Raised request before content failure) {program : Program}
    (reads : Reads content program) :
    request.Compiles ∧ program.diagnostics = [] := by
  have unspoiled (output : Path) (text : String) (produces : Produces request content output text) :
      request.Compiles ∧ program.diagnostics = [] := by
    rcases produces.reads with ⟨other, also, silent⟩
    rw [reads.unique also]
    exact ⟨produces.compiles, silent⟩
  cases raised with
  | undecodable found =>
      rw [reads.malformed?] at found
      cases found
  | unwritable produces _ => exact unspoiled _ _ produces
  | unassembled produces _ _ _ _ => exact unspoiled _ _ produces

namespace Course

variable {request : Request} {before : Workspace} {content : List UInt8} {events : List Event}
  {report : Report} (course : Course request before content events report)

include course

theorem leaves : Leaves request before content report.workspace := by
  cases course with
  | failed _ _ leaves => exact leaves
  | listed _ _ _ kept => exact Or.inl kept
  | shown _ _ _ _ kept _ => exact Or.inl kept
  | delivered produces written _ _ _ =>
      exact Or.inr ⟨_, _, produces, (congrArg Prod.snd written).symm⟩

theorem unchanged
    (free : ¬ (request.Compiles ∧ ∃ program, Reads content program ∧ program.diagnostics = [])) :
    report.workspace = before := by
  rcases course.leaves with kept | ⟨output, text, produces, _⟩
  · exact kept
  · exact absurd ⟨produces.compiles, produces.reads⟩ free

theorem confined
    {place : Place}
    (differs : report.workspace.files.entry? place ≠ before.files.entry? place) :
    ∃ output, outputPath request.input request.output = .ok output ∧
      before.files.place output = .ok place := by
  rcases course.leaves with kept | ⟨output, text, produces, left⟩
  · rw [kept] at differs
    exact absurd rfl differs
  · rcases before.files.write_confined output (Utf8.encode text.toList) with
      same | ⟨written, stored, opens, changed⟩
    · rw [left, same] at differs
      exact absurd rfl differs
    · refine ⟨output, produces.destined, ?_⟩
      by_cases same : place = written
      · rw [same]
        exact opens.leads
      · rw [left, changed, FileTree.entry?_set_other same] at differs
        exact absurd rfl differs

theorem unraised
    (free : ∀ failure, ¬ Raised request before content failure)
    (fine : request.tokens = true ∨ ∃ program, Reads content program ∧ program.diagnostics = []) :
    report.status = .success := by
  cases course with
  | failed raised _ _ => exact absurd raised (free _)
  | listed _ _ succeeds _ => exact succeeds
  | shown unlisted reads _ ends _ _ =>
      rcases fine with listed | ⟨program, also, silent⟩
      · rw [unlisted] at listed
        cases listed
      · rw [ends, reads.unique also, silent]
        rfl
  | delivered _ _ _ succeeds _ => exact succeeds

theorem delivers_of_success (compiles : request.Compiles) (zero : report.status.code = 0) :
    ∃ output text, outputPath request.input request.output = .ok output ∧
      compileText (cut standardChunkSize content) = .ok text ∧
      report.workspace.files.Holds output (Utf8.encode text.toList) ∧
      (request.assemble = true →
        ∃ output errorOutput, before.assemblerAnswer = .exited 0 output errorOutput) := by
  cases course with
  | failed _ fails _ => exact absurd zero fails.unsuccessful
  | listed listed _ _ _ =>
      rw [compiles.1] at listed
      cases listed
  | @shown program _ _ shown ends _ _ =>
      rw [compiles.2] at shown
      have occupied : program.diagnostics.isEmpty = false :=
        List.isEmpty_eq_false_iff.mpr (shown.resolve_left Bool.false_ne_true)
      rw [ends, occupied] at zero
      cases zero
  | @delivered output text produces written answered _ _ =>
      refine ⟨output, text, produces.destined, produces.translated, ?_, answered⟩
      rcases FileTree.write_eq_ok_iff.mp written with ⟨place, admits, _, same⟩
      rw [same]
      exact FileTree.read_eq_ok_iff.mp (admits.read_set _)

/-- Without a failure the log is followed by the syntax errors alone. -/
theorem printed
    (unlisted : request.tokens = false) {program : Program} (reads : Reads content program)
    (free : ∀ failure, ¬ Raised request before content failure) :
    report.errorOutput =
      logText request.verbose events ++ asLines (program.diagnostics.map syntaxErrorLine) := by
  cases course with
  | failed raised _ _ => exact absurd raised (free _)
  | listed listed _ _ _ =>
      rw [unlisted] at listed
      cases listed
  | shown _ also _ _ _ printed =>
      rw [reads.unique also]
      exact printed
  | delivered produces _ _ _ logged =>
      rcases produces.reads with ⟨other, also, silent⟩
      rw [reads.unique also, silent, logged]
      exact String.append_empty.symm

end Course

theorem raised_assembler_iff
    {request : Request} {before : Workspace} {content : List UInt8} {output : Path} {text : String}
    (produces : Produces request content output text)
    (written : (before.files.write output (Utf8.encode text.toList)).1 = .ok ())
    (wanted : request.assemble = true) :
    (∃ failure, Raised request before content (.assembler failure)) ↔
      Blamed before.assemblerAnswer := by
  constructor
  · rintro ⟨failure, raised⟩
    generalize same : Failure.assembler failure = found at raised
    cases raised with
    | undecodable _ => cases same
    | unwritable also refused =>
        rcases produces.unique also with ⟨rfl, rfl⟩
        rw [written] at refused
        cases refused
    | unassembled _ _ _ _ refused =>
        rcases judgeAnswer_error refused with ⟨blamed, _⟩ | ⟨system, _, _, differs⟩
        · exact blamed
        · rw [← same] at differs
          cases differs
  · intro blamed
    rcases FileTree.write_eq_ok_iff.mp (write_pair written) with ⟨place, admits, _, _⟩
    rcases Path.exists_withSuffix admits.named ".wasm" with ⟨binary, named⟩
    rcases judgeAnswer_of_blamed blamed request.assembler (assemblerCommand request output binary)
      output.text with ⟨failure, refused⟩
    exact ⟨failure, Raised.unassembled produces written wanted named refused⟩

theorem carryOut_concludes
    {request : Request} {size : Nat} (positive : 0 < size) {before : Workspace}
    {content : List UInt8} (held : before.files.Holds request.input content) :
    Concludes request (request.events size before content) before content
      (carryOut request size before) := by
  have course := carryOut_course positive held
  have status {failure : Failure} (raised : Raised request before content failure) :=
    (raised.fails positive held).status
  constructor
  case unchanged => exact course.unchanged
  case confined => exact fun _ => course.confined
  case success =>
    intro compiles
    constructor
    · intro zero
      refine ⟨fun failure raised => ?_, course.delivers_of_success compiles zero⟩
      exact (raised.fails positive held).unsuccessful zero
    · rintro ⟨free, output, text, destined, translated, _, _⟩
      rw [course.unraised free (Or.inr (Produces.reads ⟨compiles, destined, translated⟩))]
      rfl
  case undecodable =>
    intro undecodable
    rcases content_cases content with ⟨_, text, encodes, _⟩ | ⟨malformed, found⟩
    · exact absurd ⟨text, encodes⟩ undecodable
    · rw [status (Raised.undecodable found)]
      rfl
  case diagnosed =>
    intro unlisted program reads broken
    rw [(carryOut_of_program positive held unlisted reads (Or.inr broken)).1,
      List.isEmpty_eq_false_iff.mpr broken]
    rfl
  case assembler =>
    intro failure raised
    rw [status raised]
    rfl
  case missing =>
    intro failure raised cause
    rw [status raised]
    simp only [failureReport, Bool.or_eq_true, decide_eq_true_eq, cause, if_true]
    rfl
  case other =>
    intro failure raised decodes unblamed present
    rw [status raised]
    rcases raised.cases with ⟨offset, reason, same⟩ | ⟨blamed, same⟩ | ⟨system, same⟩ | same
    · exact absurd same (decodes offset reason)
    · exact absurd same (unblamed blamed)
    · rcases present system same with ⟨found, permitted⟩
      rw [same]
      simp only [failureReport, found, permitted, decide_false, Bool.or_self, Bool.false_eq_true,
        if_false]
      rfl
    · rw [same]
      rfl
  case unraised =>
    intro free fine
    rw [course.unraised free fine]
    rfl
  case blamed => exact fun _ _ produces => raised_assembler_iff produces
  case printed =>
    intro unlisted program reads
    refine ⟨fun failure raised => ?_, course.printed unlisted reads⟩
    rw [(raised.fails positive held).errorOutput, (raised.produces reads).2]
    exact congrArg (· ++ _) String.append_empty.symm
  case apart =>
    intro unlisted program reads shown
    rw [(carryOut_of_program positive held unlisted reads shown).2.2.2]
    exact syntaxErrors_printed ((reads_iff positive).mp reads) request.verbose

/-! ### Command lines -/

def Given.requestFor (given : Given) (file : String) : Request :=
  { input := Path.ofText file
    output := (given.value? .output).map Path.ofText
    assemble := !given.has .noAssemble
    assembler := (given.value? .assembler).getD "wat2wasm"
    tokens := given.has .tokens
    tree := given.has .tree
    verbose := given.has .verbose }

theorem checkInput_eq_ok
    {files : FileTree} {given : List String} {file : String}
    (accepted : checkInput files given = .ok file) :
    ∃ others content, given = file :: others ∧
      files.status file = .ok (some (.file content)) := by
  unfold checkInput at accepted
  split at accepted
  · cases accepted
  · split at accepted
    · cases accepted
    · cases accepted
    · cases accepted
    · rename_i content found
      cases accepted
      exact ⟨_, content, rfl, found⟩

theorem request_eq_ok
    {files : FileTree} {given : Given} {asked : Request}
    (accepted : request files given = .ok asked) :
    ∃ file content, given.files = [file] ∧ files.status file = .ok (some (.file content)) ∧
      asked = given.requestFor file := by
  unfold request at accepted
  cases checked : checkOutput files (given.value? .output) with
  | error refusal =>
      simp only [checked] at accepted
      cases accepted
  | ok =>
      simp only [checked] at accepted
      cases found : checkInput files given.files with
      | error refusal =>
          simp only [found] at accepted
          cases accepted
      | ok file =>
          rcases checkInput_eq_ok found with ⟨others, content, split, status⟩
          simp only [found] at accepted
          rw [split] at accepted
          cases others with
          | nil => exact ⟨file, content, split, status, (Except.ok.inj accepted).symm⟩
          | cons extra more => cases accepted

/-- A command line that asks for something that can be done gives a report on its source. -/
theorem request_concluded
    {words : List String} {size : Nat} (positive : 0 < size) {before : Workspace} {given : Given}
    {asked : Request} (read : readWords {} words = .ok given) (unanswered : given.answer? = none)
    (accepted : request before.files given = .ok asked) :
    ∃ file content report, given.files = [file] ∧
      before.files.status file = .ok (some (.file content)) ∧
      asked = given.requestFor file ∧ before.files.Holds asked.input content ∧
      run words size before = .ok report ∧
      Concludes asked (asked.events size before content) before content report := by
  rcases request_eq_ok accepted with ⟨file, content, alone, status, same⟩
  have held : before.files.Holds asked.input content := by
    rw [same]
    exact FileTree.holds_of_status status
  refine ⟨file, content, carryOut asked size before, alone, status, same, held, ?_,
    carryOut_concludes positive held⟩
  simp only [run, read, unanswered, accepted]

/-- What the words `-v f.ml` give. -/
def verboseSource : Given := ⟨[(.verbose, "")], ["f.ml"]⟩

/-- A source without syntax errors is no success if the assembler is given up. -/
theorem slowAssembler_concluded :
    0 < 1 ∧ readWords {} ["-v", "f.ml"] = .ok verboseSource ∧ verboseSource.answer? = none ∧
      request (sourceAt "f.ml" .timedOut).files verboseSource =
        .ok (verboseSource.requestFor "f.ml") ∧
      ∃ report, run ["-v", "f.ml"] 1 (sourceAt "f.ml" .timedOut) = .ok report ∧
        report.status.code = 1 := by
  have read : readWords {} ["-v", "f.ml"] = .ok verboseSource := by
    unfold readWords
    unfold readWords
    rfl
  have accepted : request (sourceAt "f.ml" .timedOut).files verboseSource =
      .ok (verboseSource.requestFor "f.ml") := rfl
  refine ⟨Nat.one_pos, read, rfl, accepted, ?_⟩
  rcases request_concluded Nat.one_pos read rfl accepted with
    ⟨file, content, report, _, _, _, held, reports, concludes⟩
  refine ⟨report, reports, ?_⟩
  rcases Compile.source_compiles with ⟨text, translated⟩
  have known : (sourceAt "f.ml" .timedOut).files.Holds (verboseSource.requestFor "f.ml").input
      (Utf8.encode "def f() f;".toList) := ⟨["f.ml"], rfl, rfl⟩
  rw [← held.unique known] at translated
  have produces : Produces (verboseSource.requestFor "f.ml") content ⟨"", ["f.wat"]⟩ text :=
    ⟨⟨rfl, rfl⟩, rfl, translated⟩
  have admits : (sourceAt "f.ml" .timedOut).files.Admits ⟨"", ["f.wat"]⟩ ["f.wat"] :=
    ⟨rfl, by decide⟩
  have written : ((sourceAt "f.ml" .timedOut).files.write ⟨"", ["f.wat"]⟩
      (Utf8.encode text.toList)).1 = .ok () := by
    rw [admits.write_eq]
    rfl
  rcases (concludes.blamed _ _ produces written rfl).mpr Blamed.slow with ⟨failure, raised⟩
  exact concludes.assembler failure raised

end ExprWasm.Command
