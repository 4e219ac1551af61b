import ExprWasm.Proofs.Compile.Origins
import ExprWasm.Proofs.Phrase.Unfinished
import ExprWasm.Proofs.Token.Interrupted
import ExprWasm.Proofs.Wat.Rendering

/-! What becomes of bytes does not depend on the chunks they come in.

Bytes that encode a text are compiled like the text. All others are refused, with the place and the
nature of their first defect: a reading that meets a failure does not stop before it, whatever
syntax errors come first. -/

set_option autoImplicit false

namespace ExprWasm.Compile

open Source (Breaks Chunk Reader Utf8.encode Utf8.malformed? ofText standardChunkSize undecodable)
open Token (Lexer)

/-! ### Sources with the same reader -/

theorem parse_of_breaks
    {source : List Chunk} {failure : Failure}
    (breaks : Breaks failure (Reader.ofSource source).lastFailure (Reader.ofSource source).ahead) :
    (parse source).outcome = .error failure := by
  have broken : (Lexer.ofSource source).Broken failure := ⟨' ', rfl, breaks⟩
  obtain ⟨failed, unended, readable⟩ := Lexer.listing_broken broken
  exact Phrase.parse_of_unended failed unended readable

theorem parse_congr
    {source other : List Chunk} (same : Reader.ofSource source = Reader.ofSource other) :
    parse source = parse other := by
  unfold parse Phrase.Parser.ofSource Lexer.ofSource
  rw [same]

theorem compileSource_congr
    {source other : List Chunk} (same : (parse source).outcome = (parse other).outcome)
    (filename : String) :
    (compileSource source filename).outcome = (compileSource other filename).outcome := by
  unfold compileSource
  simp only [same]
  cases (parse other).outcome with
  | error failure => rfl
  | ok program =>
      simp only
      split
      · cases Wat.render program.tree with
        | error failure => rfl
        | ok text => rfl
      · rfl

theorem compileSource_of_error
    {source : List Chunk} {failure : Failure} (failed : (parse source).outcome = .error failure)
    (filename : String) : (compileSource source filename).outcome = .error failure := by
  unfold compileSource
  simp only [failed]

/-- Every text is read as a program and compiled with a result. -/
theorem text_compiles (text filename : String) :
    (∃ program, (parse (ofText standardChunkSize text)).outcome = .ok program) ∧
      ∃ result, (compileSource (ofText standardChunkSize text) filename).outcome = .ok result := by
  obtain ⟨tokens, line, finishes⟩ := Lexer.exists_finishes_ofText text
  obtain ⟨program, parsed, bodies⟩ :=
    @exists_program _ _ _ finishes (fun _ => True) (fun _ _ _ => trivial)
  have rendered := Wat.render_complete (Wat.unit_complete bodies)
  refine ⟨⟨program, parsed⟩, ?_⟩
  unfold compileSource
  simp only [parsed]
  split
  · rw [Program.tree, rendered]
    exact ⟨_, rfl⟩
  · exact ⟨_, rfl⟩

/-! ### Bytes in pieces -/

/-- Bytes in one chunk are read like bytes in pieces, also where there are none. -/
theorem ofSource_single (bytes : List UInt8) :
    ∃ pieces : List (List UInt8), pieces.flatten = bytes ∧ (∀ piece ∈ pieces, piece ≠ []) ∧
      Reader.ofSource [.bytes bytes] = Reader.ofSource (pieces.map .bytes) := by
  cases bytes with
  | nil => exact ⟨[], rfl, List.forall_mem_nil _, rfl⟩
  | cons byte rest =>
      refine ⟨[byte :: rest], ?_, ?_, rfl⟩
      · rw [List.flatten_singleton]
      · exact List.forall_mem_singleton.mpr (List.cons_ne_nil _ _)

section Pieces

variable {pieces : List (List UInt8)} (nonempty : ∀ piece ∈ pieces, piece ≠ [])

include nonempty

theorem parse_of_malformed
    {malformed : Source.Utf8.Malformed} (found : Utf8.malformed? pieces.flatten = some malformed) :
    (parse (pieces.map .bytes)).outcome = .error (undecodable malformed) :=
  parse_of_breaks (Reader.ofSource_breaks nonempty found)

theorem parse_of_encoding {text : String} (encodes : Utf8.encode text.toList = pieces.flatten) :
    parse (pieces.map .bytes) = parse (ofText standardChunkSize text) :=
  parse_congr (Reader.ofSource_encoding nonempty encodes)

theorem parse_joined :
    (parse (pieces.map .bytes)).outcome = (parse [.bytes pieces.flatten]).outcome := by
  obtain ⟨others, joined, nonemptyOthers, same⟩ := ofSource_single pieces.flatten
  rw [parse_congr same]
  cases found : Utf8.malformed? pieces.flatten with
  | some malformed =>
      rw [parse_of_malformed nonempty found]
      rw [← joined] at found
      rw [parse_of_malformed nonemptyOthers found]
  | none =>
      obtain ⟨text, encodes⟩ := (Source.Utf8.malformed?_eq_none_iff _).mp found
      rw [parse_of_encoding nonempty encodes]
      rw [← joined] at encodes
      rw [parse_of_encoding nonemptyOthers encodes]

end Pieces

/-- However bytes are cut into chunks, they are read and compiled as in one piece. They are refused
as undecodable exactly if they encode no text; and if they encode one, then there is a program and a
result, those of the text. -/
theorem outcomes_independent_of_chunks
    (pieces : List (List UInt8)) (nonempty : ∀ piece ∈ pieces, piece ≠ []) (filename : String) :
    (parse (pieces.map .bytes)).outcome = (parse [.bytes pieces.flatten]).outcome ∧
      (compileSource (pieces.map .bytes) filename).outcome =
        (compileSource [.bytes pieces.flatten] filename).outcome ∧
      ((∃ offset reason,
          (parse (pieces.map .bytes)).outcome = .error (.undecodable offset reason)) ↔
        ¬∃ text : String, Utf8.encode text.toList = pieces.flatten) ∧
      ((∃ offset reason,
          (compileSource (pieces.map .bytes) filename).outcome =
            .error (.undecodable offset reason)) ↔
        ¬∃ text : String, Utf8.encode text.toList = pieces.flatten) ∧
      ∀ text : String, Utf8.encode text.toList = pieces.flatten →
        (∃ program,
          (parse (pieces.map .bytes)).outcome = .ok program ∧
          (parse (ofText standardChunkSize text)).outcome = .ok program) ∧
        ∃ result,
          (compileSource (pieces.map .bytes) filename).outcome = .ok result ∧
          (compileSource (ofText standardChunkSize text) filename).outcome = .ok result := by
  have joined := parse_joined nonempty
  have compiled (text : String) (encodes : Utf8.encode text.toList = pieces.flatten) :
      (∃ program,
        (parse (pieces.map .bytes)).outcome = .ok program ∧
        (parse (ofText standardChunkSize text)).outcome = .ok program) ∧
      ∃ result,
        (compileSource (pieces.map .bytes) filename).outcome = .ok result ∧
        (compileSource (ofText standardChunkSize text) filename).outcome = .ok result := by
    have same := congrArg Logged.outcome (parse_of_encoding nonempty encodes)
    obtain ⟨⟨program, parsed⟩, result, results⟩ := text_compiles text filename
    rw [same, compileSource_congr same]
    exact ⟨⟨program, parsed, parsed⟩, result, results, results⟩
  have refused (none : ¬∃ text : String, Utf8.encode text.toList = pieces.flatten) :
      ∃ offset reason,
        (parse (pieces.map .bytes)).outcome = .error (.undecodable offset reason) := by
    rw [← Source.Utf8.malformed?_eq_none_iff] at none
    obtain ⟨malformed, found⟩ := Option.ne_none_iff_exists'.mp none
    exact ⟨_, _, parse_of_malformed nonempty found⟩
  refine ⟨joined, compileSource_congr joined filename, ⟨?_, refused⟩, ⟨?_, ?_⟩, compiled⟩
  · rintro ⟨offset, reason, failed⟩ ⟨text, encodes⟩
    obtain ⟨program, parsed, _⟩ := (compiled text encodes).1
    rw [parsed] at failed
    cases failed
  · rintro ⟨offset, reason, failed⟩ ⟨text, encodes⟩
    obtain ⟨result, results, _⟩ := (compiled text encodes).2
    rw [results] at failed
    cases failed
  · intro none
    obtain ⟨offset, reason, failed⟩ := refused none
    exact ⟨offset, reason, compileSource_of_error failed filename⟩

/-- A surrogate is refused where it is cut after its first byte, as it is in one piece. -/
theorem cutSurrogate_refused :
    (∀ piece ∈ ([[0xED], [0xA0, 0x80]] : List (List UInt8)), piece ≠ []) ∧
      (parse [.bytes [0xED], .bytes [0xA0, 0x80]]).outcome =
        (parse [.bytes [0xED, 0xA0, 0x80]]).outcome ∧
      ∃ offset reason, (parse [.bytes [0xED], .bytes [0xA0, 0x80]]).outcome =
        .error (.undecodable offset reason) := by
  have nonempty : ∀ piece ∈ ([[0xED], [0xA0, 0x80]] : List (List UInt8)), piece ≠ [] := by decide
  have outcomes := outcomes_independent_of_chunks [[0xED], [0xA0, 0x80]] nonempty ""
  refine ⟨nonempty, outcomes.1, outcomes.2.2.1.mpr ?_⟩
  rw [← Source.Utf8.malformed?_eq_none_iff]
  decide

end ExprWasm.Compile
