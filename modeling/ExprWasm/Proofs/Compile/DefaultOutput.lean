import ExprWasm.Proofs.Compile.Delivery

/-! What becomes of a source that is compiled without a path for the module.

The module is written beside the source, under the same name with the suffix `.wat`. A source that
has this suffix itself is replaced by its module, as far as that can be written. Every other one is
kept. -/

set_option autoImplicit false

namespace ExprWasm.Compile

open Files (FileTree Path Place)
open Source (Chunk cut standardChunkSize Utf8.encode)

structure NamedAsModule (files : FileTree) (input : Path) (content : List UInt8) (text : String) :
    Prop where
  suffixed : input.HasSuffix ".wat"
  held : files.Holds input content
  compiles : compileText (cut standardChunkSize content) = .ok text

def leftBy (old new : List UInt8) : Files.WriteAnswer → List UInt8
  | .accepted => new
  | .refused _ => old
  | .cutShort taken _ => new.take taken

section Named

variable {files : FileTree} {input : Path} {content : List UInt8} {text : String} {place : Place}
  (named : NamedAsModule files input content text) (leads : files.place input = .ok place)

include named leads

theorem NamedAsModule.admits : files.Admits input place := by
  obtain ⟨other, also, entry⟩ := named.held
  cases leads.symm.trans also
  refine ⟨leads, ?_⟩
  rw [entry]
  nofun

theorem NamedAsModule.deliverable
    (permitted : ∀ failure, files.writeAnswer place ≠ .refused failure) :
    Deliverable files input none input place content text where
  held := named.held
  compiles := named.compiles
  destined := Path.withSuffix_of_hasSuffix rfl (by decide) (by decide) named.suffixed
  opens := ⟨named.admits leads, permitted⟩

theorem NamedAsModule.undeliverable
    {failure : SystemFailure} (refused : files.writeAnswer place = .refused failure)
    (destination : Path) (elsewhere : Place) (other : List UInt8) (made : String) :
    ¬ Deliverable files input none destination elsewhere other made := by
  intro deliverable
  have destined : outputPath input none = .ok input :=
    Path.withSuffix_of_hasSuffix rfl (by decide) (by decide) named.suffixed
  cases destined.symm.trans deliverable.destined
  cases leads.symm.trans deliverable.opens.leads
  exact deliverable.opens.permitted failure refused

end Named

/-- A module goes to another place than a source that is not named like it. -/
theorem Deliverable.place_ne
    {files : FileTree} {input destination : Path} {place elsewhere : Place} {content : List UInt8}
    {text : String} (deliverable : Deliverable files input none destination place content text)
    (kept : ¬ NamedAsModule files input content text) (leads : files.place input = .ok elsewhere) :
    elsewhere ≠ place := by
  have unsuffixed : ¬ input.HasSuffix ".wat" := by
    intro suffixed
    exact kept ⟨suffixed, deliverable.held, deliverable.compiles⟩
  exact FileTree.place_ne_of_withSuffix rfl (by decide) (by decide) deliverable.destined unsuffixed
    leads deliverable.opens.leads

section File

variable {options : Options} (positive : 0 < options.chunkSize) {before : Workspace} {input : Path}

include positive

theorem source_replaced
    {content : List UInt8} {text : String} (named : NamedAsModule before.files input content text)
    {place : Place} (leads : before.files.place input = .ok place) :
    (compileFile options before input none).workspace.files.read input =
      .ok (leftBy content (Utf8.encode text.toList) (before.files.writeAnswer place)) := by
  have admits := named.admits leads
  cases answer : before.files.writeAnswer place with
  | accepted =>
      have deliverable := named.deliverable leads (by rw [answer]; nofun)
      obtain ⟨binary, suffixed⟩ := Path.exists_withSuffix admits.named ".wasm"
      rw [(compileFile_of_accepted positive deliverable answer suffixed).1]
      exact admits.read_set _
  | refused failure =>
      rw [compileFile_of_undeliverable positive (named.undeliverable leads answer)]
      exact FileTree.read_eq_ok_iff.mpr named.held
  | cutShort taken failure =>
      have deliverable := named.deliverable leads (by rw [answer]; nofun)
      rw [(compileFile_of_cutShort positive deliverable answer).1]
      exact admits.read_set _

theorem source_kept (kept : ∀ content text, ¬ NamedAsModule before.files input content text) :
    (compileFile options before input none).workspace.files.read input =
      before.files.read input := by
  by_cases possible : ∃ destination place content text,
      Deliverable before.files input none destination place content text
  · obtain ⟨destination, place, content, text, deliverable⟩ := possible
    have admits := deliverable.opens.toAdmits
    obtain ⟨elsewhere, leads, entry⟩ := deliverable.held
    have different := deliverable.place_ne (kept content text) leads
    have stays (stored : List UInt8) := admits.read_set_other stored leads entry different
    rw [FileTree.read_eq_ok_iff.mpr deliverable.held]
    cases answer : before.files.writeAnswer place with
    | accepted =>
        obtain ⟨binary, suffixed⟩ := Path.exists_withSuffix admits.named ".wasm"
        rw [(compileFile_of_accepted positive deliverable answer suffixed).1]
        exact stays _
    | refused failure => exact absurd answer (deliverable.opens.permitted failure)
    | cutShort taken failure =>
        rw [(compileFile_of_cutShort positive deliverable answer).1]
        exact stays _
  · rw [compileFile_of_undeliverable positive]
    intro destination place content text deliverable
    exact possible ⟨destination, place, content, text, deliverable⟩

end File

theorem module_opens
    {source : List Chunk} {text : String} (compiles : compileText source = .ok text) :
    ∃ rest, text.toList = '(' :: rest := by
  obtain ⟨program, _, _, rfl⟩ := compileText_eq_ok_iff.mp compiles
  obtain ⟨rest, opened⟩ := Wat.lines_unit program.functions
  rw [Program.tree, opened, Wat.terminated, List.map_cons, String.join_cons, String.toList_append]
  exact ⟨_, rfl⟩

theorem watSource_named (answer : ProgramAnswer) :
    ∃ text, NamedAsModule (sourceAt "f.wat" answer).files ⟨"", ["f.wat"]⟩
      (Utf8.encode "def f() f;".toList) text := by
  obtain ⟨text, compiles⟩ := source_compiles
  have suffixed : Path.HasSuffix ⟨"", ["f.wat"]⟩ ".wat" := ⟨[], "f", by decide, rfl⟩
  exact ⟨text, suffixed, ⟨["f.wat"], rfl, rfl⟩, compiles⟩

/-- A source with the name of a module is not safe from its own module. -/
theorem watSource_overwritten :
    (sourceAt "f.wat" (.exited 0 "" "")).files.read ⟨"", ["f.wat"]⟩ =
        .ok (Utf8.encode "def f() f;".toList) ∧
      (compileFile {} (sourceAt "f.wat" (.exited 0 "" "")) ⟨"", ["f.wat"]⟩ none).workspace.files.read
          ⟨"", ["f.wat"]⟩ ≠
        .ok (Utf8.encode "def f() f;".toList) := by
  obtain ⟨text, named⟩ := watSource_named (.exited 0 "" "")
  obtain ⟨rest, opened⟩ := module_opens named.compiles
  refine ⟨rfl, ?_⟩
  have leads : (sourceAt "f.wat" (.exited 0 "" "")).files.place ⟨"", ["f.wat"]⟩ = .ok ["f.wat"] := rfl
  rw [source_replaced (by decide) named leads]
  change Except.ok (Utf8.encode text.toList) ≠ _
  rw [opened]
  intro same
  -- A module begins with a parenthesis, the source with a letter.
  have heads : some (40 : UInt8) = some 100 := congrArg List.head? (Except.ok.inj same)
  exact absurd heads (by decide)

/-- A source that is compiled without a path for the module stays as it is, unless it is named as
the module would be and has one. Then it is replaced by the module, if that is written as a whole.
-/
theorem source_kept_unless_named_as_module
    (options : Options) (positive : 0 < options.chunkSize) (before : Workspace) (input : Path) :
    ((∀ content text, ¬ NamedAsModule before.files input content text) →
      (compileFile options before input none).workspace.files.read input =
        before.files.read input) ∧
    ∀ content text, NamedAsModule before.files input content text →
      ∃ place, before.files.place input = .ok place ∧
        (compileFile options before input none).workspace.files.read input =
          .ok (leftBy content (Utf8.encode text.toList) (before.files.writeAnswer place)) := by
  constructor
  · intro kept
    exact source_kept positive kept
  · intro content text named
    obtain ⟨place, leads, _⟩ := named.held
    exact ⟨place, leads, source_replaced positive named leads⟩

theorem mlSource_kept_watSource_replaced :
    0 < ({} : Options).chunkSize ∧
    (∀ content text,
      ¬ NamedAsModule (sourceAt "f.ml" .timedOut).files ⟨"", ["f.ml"]⟩ content text) ∧
    (compileFile {} (sourceAt "f.ml" .timedOut) ⟨"", ["f.ml"]⟩ none).workspace.files.read
        ⟨"", ["f.ml"]⟩ =
      .ok (Utf8.encode "def f() f;".toList) ∧
    ∃ text,
      NamedAsModule (sourceAt "f.wat" .timedOut).files ⟨"", ["f.wat"]⟩
        (Utf8.encode "def f() f;".toList) text ∧
      (compileFile {} (sourceAt "f.wat" .timedOut) ⟨"", ["f.wat"]⟩ none).workspace.files.read
          ⟨"", ["f.wat"]⟩ =
        .ok (Utf8.encode text.toList) := by
  have kept : ∀ content text,
      ¬ NamedAsModule (sourceAt "f.ml" .timedOut).files ⟨"", ["f.ml"]⟩ content text := by
    intro content text named
    have same : (⟨"", ["f.wat"]⟩ : Path) = ⟨"", ["f.ml"]⟩ :=
      Except.ok.inj (Path.withSuffix_of_hasSuffix rfl (by decide) (by decide) named.suffixed)
    exact absurd same (by decide)
  obtain ⟨text, named⟩ := watSource_named .timedOut
  obtain ⟨place, _, replaced⟩ :=
    (source_kept_unless_named_as_module {} (by decide) (sourceAt "f.wat" .timedOut)
      ⟨"", ["f.wat"]⟩).2 _ text named
  exact ⟨by decide, kept,
    (source_kept_unless_named_as_module {} (by decide) (sourceAt "f.ml" .timedOut)
      ⟨"", ["f.ml"]⟩).1 kept,
    text, named, replaced⟩

end ExprWasm.Compile
