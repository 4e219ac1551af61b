import ExprWasm.Proofs.Compile.Completion
import ExprWasm.Proofs.Phrase.Course
import ExprWasm.Proofs.Phrase.Moves
import ExprWasm.Proofs.Token.Places

/-! The lines of diagnostics.

A diagnostic is on the line of the token that was the lookahead when it was made. So the lines do
not descend in the order of the diagnostics, and none is beyond the last line of the text. -/

set_option autoImplicit false

namespace ExprWasm.Compile

open Phrase (Intake Note Orderly Parser)
open Source (isLineBreak ofText standardChunkSize)
open Token (BeginsAfter Lexed Lexer)

structure Located (text : List Char) (note : Note) (before : List Lexed) (lookahead : Lexed)
    (front : List Char) : Prop where
  drawn : note.drawn.reverse = before ++ [lookahead]
  begins : BeginsAfter text before lookahead front
  line : note.diagnostic.line = 1 + (front.countP isLineBreak : Int)

theorem Located.line_le
    {text front : List Char} {note : Note} {before : List Lexed} {lookahead : Lexed}
    (located : Located text note before lookahead front) :
    note.diagnostic.line ≤ 1 + (text.countP isLineBreak : Int) := by
  have fewer := located.begins.isPrefix.sublist.countP_le (p := isLineBreak)
  rw [located.line]
  omega

section Text

variable {text : String} {tokens : List Lexed} {line : Int} {final : Intake}
  (finishes : (Lexer.ofSource (ofText standardChunkSize text)).Finishes tokens line)
  (drawn : final.drawn.reverse = tokens ++ [ending line]) (orderly : Orderly final)

include finishes drawn orderly

theorem note_located {note : Note} (member : note ∈ final.notes) :
    ∃ before lookahead front, Located text.toList note before lookahead front := by
  obtain ⟨complaint, lookahead, before, rfl⟩ := orderly.about note member
  obtain ⟨later, split⟩ := orderly.earlier _ member
  have listed : tokens ++ [ending line] = before.reverse ++ lookahead :: later.reverse := by
    rw [← drawn, ← split]
    simp
  obtain ⟨front, begins, counted⟩ := Token.token_begins finishes listed
  exact ⟨before.reverse, lookahead, front, List.reverse_cons, begins, counted⟩

theorem notes_ascend :
    (final.notes.reverse.map fun note => note.diagnostic.line).Pairwise (· ≤ ·) := by
  have ascends : final.drawn.Pairwise fun later token => token.line ≤ later.line := by
    have lines := Token.lines_ascend finishes
    change (tokens.map Lexed.line ++ [ending line].map Lexed.line).Pairwise _ at lines
    rw [← List.map_append, ← drawn, List.pairwise_map, List.pairwise_reverse] at lines
    exact lines
  rw [List.pairwise_map, List.pairwise_reverse]
  exact orderly.ascends ascends

end Text

/-- The diagnostics of every text are notes of the parser that draws its tokens. Each is on the line
where the lookahead of that moment begins, which is one more than the line breaks before it; the
lines do not descend, and none is more than one beyond the line breaks of the text. -/
theorem diagnostics_located (text : String) :
    ∃ final program,
      (Parser.ofSource (ofText standardChunkSize text) []).parseOnDemand = .found () final ∧
      (parse (ofText standardChunkSize text)).outcome = .ok program ∧
      program.diagnostics = final.notes.reverse.map Note.diagnostic ∧
      (∀ note ∈ final.notes, ∃ before lookahead front,
        Located text.toList note before lookahead front) ∧
      (program.diagnostics.map Diagnostic.line).Pairwise (· ≤ ·) ∧
      ∀ diagnostic ∈ program.diagnostics,
        diagnostic.line ≤ 1 + (text.toList.countP isLineBreak : Int) := by
  obtain ⟨tokens, line, finishes⟩ := Lexer.exists_finishes_ofText text
  have agrees := (Parser.ofSource (ofText standardChunkSize text) []).parseOnDemand_agrees
  generalize returns : (Parser.ofSource (ofText standardChunkSize text) []).parseOnDemand = drawn
    at agrees
  cases agrees with
  | interrupted _ failed _ =>
      change (Lexer.ofSource _).listing.failure = _ at failed
      rw [finishes.failure] at failed
      cases failed
  | @complete final outcome _ _ settles =>
      have orderly := Parser.parseOnDemand_orderly returns
      have drawn : final.drawn.reverse = tokens ++ [ending line] :=
        settles.drawn.trans finishes.listing
      have located (note : Note) (member : note ∈ final.notes) :=
        note_located finishes drawn orderly member
      have parsed : (parse (ofText standardChunkSize text)).outcome =
          .ok ⟨final.functions.reverse, final.notes.reverse.map Note.diagnostic⟩ := by
        unfold parse
        simp only [outcome, settles.after]
        rw [List.map_reverse]
        rfl
      refine ⟨final, _, rfl, parsed, rfl, located, ?_, ?_⟩
      · rw [List.map_map]
        exact notes_ascend finishes drawn orderly
      · intro diagnostic member
        obtain ⟨note, noted, rfl⟩ := List.mem_map.mp member
        obtain ⟨_, _, _, located⟩ := located note (List.mem_reverse.mp noted)
        exact located.line_le

end ExprWasm.Compile
