import ExprWasm.Compile.File
import ExprWasm.Proofs.Compile.Chunking
import ExprWasm.Proofs.Compile.EntryPoints
import ExprWasm.Proofs.Compile.PrintedBack
import ExprWasm.Proofs.Files.Suffix

/-! The compilation of a file writes a whole module or nothing.

Nothing is changed unless the input is a file with a text without syntax errors and the output can
be opened for writing. Then the module stands at the place of the output, and all other files are as
they were, whatever the assembler makes of it. Only where the output is cut short while it is
written is a part of the module left there, and the assembler is not asked. -/

set_option autoImplicit false

namespace ExprWasm.Compile

open Files (FileTree Path Place)
open Source (Chunk cut ofText standardChunkSize Utf8.encode)
open ExprWasm.Tree (Node)

/-! ### The content of a file -/

section Content

variable {size : Nat} (positive : 0 < size) (content : List UInt8)

include positive

/-- A file is read alike in pieces of any size. -/
theorem parse_cut :
    (parse (cut size content)).outcome = (parse (cut standardChunkSize content)).outcome := by
  have whole {size : Nat} (positive : 0 < size) :
      (parse (cut size content)).outcome = (parse [.bytes content]).outcome := by
    obtain ⟨pieces, cuts, joined, nonempty⟩ := Source.cut_eq_pieces size positive content
    rw [cuts, ← joined]
    exact parse_joined nonempty
  rw [whole positive, whole (by decide)]

theorem parse_encoded (text : String) :
    parse (cut size (Utf8.encode text.toList)) = parse (ofText standardChunkSize text) := by
  obtain ⟨pieces, cuts, joined, nonempty⟩ :=
    Source.cut_eq_pieces size positive (Utf8.encode text.toList)
  rw [cuts]
  exact parse_of_encoding nonempty joined.symm

/-- A file has a program exactly if its content is the encoding of a text. -/
theorem parse_cut_isOk_iff :
    (∃ program, (parse (cut size content)).outcome = .ok program) ↔
      ∃ text : String, Utf8.encode text.toList = content := by
  constructor
  · rintro ⟨program, parsed⟩
    obtain ⟨pieces, cuts, joined, nonempty⟩ := Source.cut_eq_pieces size positive content
    rw [cuts] at parsed
    rw [← joined, ← Source.Utf8.malformed?_eq_none_iff, Option.eq_none_iff_forall_ne_some]
    intro malformed found
    rw [parse_of_malformed nonempty found] at parsed
    cases parsed
  · rintro ⟨text, rfl⟩
    rw [parse_encoded positive]
    exact (text_compiles text "").1

end Content

theorem compileText_eq_ok_iff {source : List Chunk} {text : String} :
    compileText source = .ok text ↔
      ∃ program, (parse source).outcome = .ok program ∧ program.diagnostics = [] ∧
        text = String.join (Wat.terminated (Wat.lines program.tree).texts) := by
  constructor
  · intro compiles
    rcases parse_cases source with ⟨program, parsed⟩ | ⟨failure, failed, raised⟩
    · by_cases silent : program.diagnostics = []
      · rw [(translated "" #[] parsed silent).text] at compiles
        exact ⟨program, parsed, silent, (Except.ok.inj compiles).symm⟩
      · rw [(diagnosed "" #[] parsed silent).text] at compiles
        cases compiles
    · rw [(refused "" #[] failed raised).text] at compiles
      cases compiles
  · rintro ⟨program, parsed, silent, rfl⟩
    exact (translated "" #[] parsed silent).text

/-- A source has a module text exactly if it can be compiled without errors. -/
theorem moduleText_iff {source : List Chunk} {filename text : String} :
    (∃ result, (compileSource source filename).outcome = .ok result ∧
        result.moduleText = some text) ↔
      compileText source = .ok text := by
  rw [compileText_eq_ok_iff]
  constructor
  · rintro ⟨result, compiled, made⟩
    rcases parse_cases source with ⟨program, parsed⟩ | ⟨failure, failed, _⟩
    · rw [compileSource_of_program parsed] at compiled
      cases compiled
      simp only [Option.ite_none_right_eq_some, Option.some.injEq, List.isEmpty_iff] at made
      exact ⟨program, parsed, made.1, made.2.symm⟩
    · rw [compileSource_of_error failed] at compiled
      cases compiled
  · rintro ⟨program, parsed, silent, rfl⟩
    refine ⟨_, compileSource_of_program parsed filename, ?_⟩
    rw [silent, List.isEmpty_nil, if_pos rfl]

theorem moduleText_cut_iff
    {size : Nat} (positive : 0 < size) {content : List UInt8} {filename text : String} :
    (∃ result, (compileSource (cut size content) filename).outcome = .ok result ∧
        result.moduleText = some text) ↔
      compileText (cut standardChunkSize content) = .ok text := by
  rw [compileSource_congr (parse_cut positive content), moduleText_iff]

/-! ### What is written -/

structure Deliverable (files : FileTree) (input : Path) (output : Option Path) (destination : Path)
    (place : Place) (content : List UInt8) (text : String) : Prop where
  held : files.Holds input content
  compiles : compileText (cut standardChunkSize content) = .ok text
  destined : outputPath input output = .ok destination
  opens : files.Opens destination place

/-- The environment after a module was written at a place. The assembler was run if it was wanted.
-/
def Workspace.withModule (workspace : Workspace) (options : Options) (destination binary : Path)
    (place : Place) (text : String) : Workspace :=
  { workspace with
    files := workspace.files.set place (.file (Utf8.encode text.toList))
    invocations := workspace.invocations ++
      if options.assemble then
        [⟨[options.assembler, destination.text, "-o", binary.text], options.timeout⟩]
      else [] }

def Workspace.withPart (workspace : Workspace) (place : Place) (text : String) (taken : Nat) :
    Workspace :=
  { workspace with
    files := workspace.files.set place (.file ((Utf8.encode text.toList).take taken)) }

theorem judgeAnswer_eq_ok_iff (assembler command wat : String) (answer : ProgramAnswer) :
    (judgeAnswer assembler command wat answer).1 = .ok () ↔
      ∃ output errorOutput, answer = .exited 0 output errorOutput := by
  cases answer with
  | exited status output errorOutput =>
      unfold judgeAnswer
      by_cases zero : status = 0
      · simp [zero]
      · simp [zero]
  | timedOut => simp [judgeAnswer]
  | failed failure =>
      unfold judgeAnswer
      by_cases missing : failure.cause = .notFound
      · simp [missing]
      · simp [missing]

theorem assemble_of_withSuffix
    {destination binary : Path} (named : destination.withSuffix ".wasm" = .ok binary)
    (options : Options) (workspace : Workspace) :
    (assemble options workspace destination none).workspace =
        { workspace with
          invocations := workspace.invocations ++
            [⟨[options.assembler, destination.text, "-o", binary.text], options.timeout⟩] } ∧
      ((∃ path, (assemble options workspace destination none).outcome = .ok path) ↔
        ∃ output errorOutput, workspace.assemblerAnswer = .exited 0 output errorOutput) := by
  unfold assemble
  rw [Option.elim_none, named]
  refine ⟨rfl, ?_⟩
  simp only
  generalize " ".intercalate _ = command
  rw [← judgeAnswer_eq_ok_iff options.assembler command destination.text]
  cases (judgeAnswer options.assembler command destination.text workspace.assemblerAnswer).1 with
  | error failure => simp [Except.map]
  | ok => simp [Except.map]

section Written

variable {before : Workspace} {destination : Path} {place : Place}
  (admits : before.files.Admits destination place) (options : Options) (result : Result)
  (text : String)

include admits

theorem writeModule_of_accepted
    (accepted : before.files.writeAnswer place = .accepted) {binary : Path}
    (named : destination.withSuffix ".wasm" = .ok binary) :
    (writeModule options before destination result text).workspace =
        before.withModule options destination binary place text ∧
      ((∃ final, (writeModule options before destination result text).outcome = .ok final) ↔
        options.assemble = false ∨
          ∃ output errorOutput, before.assemblerAnswer = .exited 0 output errorOutput) := by
  unfold writeModule
  rw [FileTree.write_eq_ok_iff.mpr ⟨place, admits, accepted, rfl⟩]
  cases wanted : options.assemble with
  | false => simp [Workspace.withModule, wanted]
  | true =>
      obtain ⟨leaves, answers⟩ := assemble_of_withSuffix named options
        { before with files := before.files.set place (.file (Utf8.encode text.toList)) }
      simp only [if_true]
      constructor
      · rw [leaves, Workspace.withModule, wanted, if_pos rfl]
      · rw [← answers]
        cases (assemble options _ destination none).outcome <;> simp [Except.map]

theorem writeModule_of_cutShort
    {taken : Nat} {failure : SystemFailure}
    (short : before.files.writeAnswer place = .cutShort taken failure) :
    writeModule options before destination result text =
      ⟨.error (.system failure), before.withPart place text taken, []⟩ := by
  unfold writeModule
  rw [admits.write_eq, short]
  rfl

end Written

section File

variable {options : Options} (positive : 0 < options.chunkSize) {before : Workspace} {input : Path}
  {output : Option Path}

include positive

/-- A source that has a module comes to the writing of it. -/
theorem compileFile_of_module
    {destination : Path} {content : List UInt8} {text : String}
    (held : before.files.Holds input content)
    (compiles : compileText (cut standardChunkSize content) = .ok text)
    (destined : outputPath input output = .ok destination) :
    ∃ result events, Result.moduleText result = some text ∧
      compileFile options before input output =
        { writeModule options before destination result text with
          events := events ++ (writeModule options before destination result text).events } := by
  obtain ⟨result, compiled, made⟩ :
      ∃ result, (compileSource (cut options.chunkSize content) input.text).outcome = .ok result ∧
        result.moduleText = some text :=
    (moduleText_cut_iff positive).mpr compiles
  refine ⟨result, (compileSource (cut options.chunkSize content) input.text).events, made, ?_⟩
  simp only [compileFile, destined, FileTree.read_eq_ok_iff.mpr held, compiled, made]

theorem compileFile_of_accepted
    {destination binary : Path} {place : Place} {content : List UInt8} {text : String}
    (deliverable : Deliverable before.files input output destination place content text)
    (accepted : before.files.writeAnswer place = .accepted)
    (named : destination.withSuffix ".wasm" = .ok binary) :
    (compileFile options before input output).workspace =
        before.withModule options destination binary place text ∧
      ((∃ result, (compileFile options before input output).outcome = .ok result) ↔
        options.assemble = false ∨
          ∃ output errorOutput, before.assemblerAnswer = .exited 0 output errorOutput) := by
  obtain ⟨result, events, _, ends⟩ := compileFile_of_module positive deliverable.held
    deliverable.compiles deliverable.destined
  rw [ends]
  exact writeModule_of_accepted deliverable.opens.toAdmits options result text accepted named

theorem compileFile_of_cutShort
    {destination : Path} {place : Place} {content : List UInt8} {text : String}
    (deliverable : Deliverable before.files input output destination place content text)
    {taken : Nat} {failure : SystemFailure}
    (short : before.files.writeAnswer place = .cutShort taken failure) :
    (compileFile options before input output).workspace = before.withPart place text taken ∧
      (compileFile options before input output).outcome = .error (.system failure) := by
  obtain ⟨result, events, _, ends⟩ := compileFile_of_module positive deliverable.held
    deliverable.compiles deliverable.destined
  rw [ends, writeModule_of_cutShort deliverable.opens.toAdmits options result text short]
  exact ⟨rfl, rfl⟩

theorem compileFile_of_undeliverable
    (undeliverable : ∀ destination place content text,
      ¬ Deliverable before.files input output destination place content text) :
    (compileFile options before input output).workspace = before := by
  unfold compileFile
  split
  · rfl
  rename_i destination destined
  split
  · rfl
  rename_i content held
  simp only
  split
  · rfl
  rename_i result compiled
  split
  · rfl
  rename_i text made
  -- What could be opened would make the module deliverable.
  have closed : ∀ place, ¬ before.files.Opens destination place := by
    intro place opens
    exact undeliverable destination place content text
      { held := FileTree.read_eq_ok_iff.mp held
        compiles := (moduleText_cut_iff positive).mp ⟨result, compiled, made⟩
        destined
        opens }
  obtain ⟨failure, refuses⟩ := FileTree.write_of_closed closed (Utf8.encode text.toList)
  simp only [writeModule, refuses]

end File

/-! ### What keeps a module from being written -/

inductive Hindered (files : FileTree) (input : Path) (output : Option Path) : Prop where
  | unreadable (missing : ∀ content, ¬ files.Holds input content)
  | undecodable {content : List UInt8} (held : files.Holds input content)
      (malformed : ¬ ∃ text : String, Utf8.encode text.toList = content)
  | diagnosed {content : List UInt8} {program : Program} (held : files.Holds input content)
      (parsed : (parse (cut standardChunkSize content)).outcome = .ok program)
      (broken : program.diagnostics ≠ [])
  | unwritable (closed : ∀ destination place, outputPath input output = .ok destination →
      ¬ files.Opens destination place)

section Hindered

variable {files : FileTree} {input : Path} {output : Option Path}

theorem Hindered.undeliverable
    (hindered : Hindered files input output) (destination : Path) (place : Place)
    (content : List UInt8) (text : String) :
    ¬ Deliverable files input output destination place content text := by
  intro deliverable
  obtain ⟨program, parsed, silent, _⟩ := compileText_eq_ok_iff.mp deliverable.compiles
  cases hindered with
  | unreadable missing => exact missing content deliverable.held
  | undecodable held malformed =>
      cases held.unique deliverable.held
      exact malformed ((parse_cut_isOk_iff (by decide) content).mp ⟨program, parsed⟩)
  | diagnosed held complained broken =>
      cases held.unique deliverable.held
      rw [parsed] at complained
      cases complained
      exact broken silent
  | unwritable closed => exact closed destination place deliverable.destined deliverable.opens

end Hindered

/-! ### A directory with one source -/

def sourceAt (name : String) (answer : ProgramAnswer) : Workspace :=
  { files := { entries := [([name], .file (Utf8.encode "def f() f;".toList))] }
    assemblerAnswer := answer }

theorem parse_reference :
    (parse (ofText standardChunkSize "def f() f;")).outcome =
      .ok ⟨[⟨⟨"f", []⟩, .reference "f"⟩], []⟩ := by
  obtain ⟨tokens, written, nonempty, bodied⟩ :=
    body_reads_back (.expression (.reference spelled_f)) (List.forall_mem_nil _) 1
  have printed : (Node.reference "f").bodyText = "f" :=
    String.toList_inj.mp (Node.printed_reference "f")
  have parsed := parse_bodied written nonempty bodied
  rw [printed] at parsed
  exact parsed

theorem source_compiles :
    ∃ text, compileText (cut standardChunkSize (Utf8.encode "def f() f;".toList)) = .ok text := by
  have parsed := parse_reference
  rw [← parse_encoded (by decide : 0 < standardChunkSize)] at parsed
  exact ⟨_, compileText_eq_ok_iff.mpr ⟨_, parsed, rfl, rfl⟩⟩

/-! ### All or nothing -/

end ExprWasm.Compile
