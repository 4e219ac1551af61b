import ExprWasm.Proofs.Compile.Acceptance
import ExprWasm.Proofs.Phrase.Locality
import ExprWasm.Proofs.Token.Joined

/-! Recovery from errors does not go beyond a semicolon.

A text up to a semicolon is read in the same way whatever follows it, and what follows is read as if
the text began there, on later lines. -/

set_option autoImplicit false

namespace ExprWasm

def Diagnostic.moved (lines : Int) (diagnostic : Diagnostic) : Diagnostic :=
  { diagnostic with line := diagnostic.line + lines }

namespace Compile

open Token (Kind Lexed Lexer)
open Phrase (Closed Findings Readable Rounds Unended)

/-- The tokens up to a semicolon are read with the same findings whatever follows. -/
theorem rounds_segment
    {before : List Lexed} {semicolon : Lexed} (isSemicolon : semicolon.kind = .semicolon)
    (absent : Unended (before ++ [semicolon])) (readable : Readable (before ++ [semicolon])) :
    ∃ found : Findings, ∀ more, ∃ later,
      Rounds {} (before ++ [semicolon] ++ more) later more ∧
      later.functions = found.functions ∧ later.diagnostics = found.diagnostics := by
  have closed : Closed (before ++ [semicolon]) := Closed.of_boundary (by rw [isSemicolon]; rfl)
    (fun token member => absent token (List.mem_append_left _ member)) readable.left
  obtain ⟨found, remaining, rounds, ended⟩ := Rounds.exist closed {}
  obtain ⟨taken, split, _⟩ := rounds.takes closed
  have nothing : remaining = [] := by
    cases remaining with
    | nil => rfl
    | cons token rest =>
        have member : token ∈ before ++ [semicolon] := by
          rw [split]
          exact List.mem_append_right _ (List.mem_cons_self ..)
        exact absurd (ended token (List.mem_cons_self ..)) (absent token member)
  subst nothing
  refine ⟨found, ?_⟩
  intro more
  obtain ⟨later, roundsOn, functions, diagnostics⟩ := rounds.relocate closed id more {}
  rw [List.append_nil] at functions diagnostics
  simp only [id_eq, List.map_id_fun'] at roundsOn diagnostics
  exact ⟨later, roundsOn, functions, diagnostics⟩

/-- The last character of a text is a semicolon that the lexer reads as a token: the tokens read end
with a semicolon, and nothing is left after it. -/
def EndsWithSemicolon (text : String) : Prop :=
  ∃ before semicolon after,
    (Lexer.ofSource (Source.ofText Source.standardChunkSize text)).Reads
      (before ++ [semicolon]) after ∧
    semicolon.kind = .semicolon ∧ after.lookahead = .endOfInput

/-- Two texts put together after a semicolon give the functions and the errors of both, whatever the
errors are, and those of the second on the lines where it now stands. -/
theorem parse_append_of_semicolon (first second : String) (ends : EndsWithSemicolon first) :
    ∃ earlier later,
      (parse (Source.ofText Source.standardChunkSize first)).outcome = .ok earlier ∧
      (parse (Source.ofText Source.standardChunkSize second)).outcome = .ok later ∧
      (parse (Source.ofText Source.standardChunkSize (first ++ second))).outcome =
        .ok ⟨earlier.functions ++ later.functions,
          earlier.diagnostics ++
            later.diagnostics.map (.moved (first.toList.countP Source.isLineBreak))⟩ := by
  obtain ⟨before, semicolon, after, reads, isSemicolon, atEnd⟩ := ends
  obtain ⟨tokens, line, finishes⟩ := Lexer.exists_finishes_ofText second
  obtain ⟨⟨firstLine, finishesFirst⟩, finishesBoth⟩ :=
    Lexer.finishes_append first second reads isSemicolon atEnd finishes
  obtain ⟨absent, readable⟩ := finishesFirst.tokens_ofText
  obtain ⟨found, segment⟩ := rounds_segment isSemicolon absent readable
  obtain ⟨earlier, roundsFirst, earlierFunctions, earlierDiagnostics⟩ :=
    segment [ending firstLine]
  have closed := closed_of_finishes finishes
  obtain ⟨later, rounds⟩ := Rounds.exist_to_end rfl closed {}
  refine ⟨_, _, parse_of_finishes finishesFirst roundsFirst, parse_of_finishes finishes rounds, ?_⟩
  generalize (first.toList.countP Source.isLineBreak : Int) = lines at finishesBoth ⊢
  obtain ⟨middle, roundsMiddle, middleFunctions, middleDiagnostics⟩ :=
    segment ((tokens ++ [ending line]).map (Lexed.moved lines))
  obtain ⟨final, roundsLast, functions, diagnostics⟩ :=
    rounds.relocate closed (· + lines) [] middle
  rw [List.append_nil, List.append_nil] at roundsLast
  have roundsBoth := roundsMiddle.trans roundsLast
  rw [List.map_append, ← List.append_assoc] at roundsBoth
  rw [parse_of_finishes finishesBoth roundsBoth, functions, diagnostics, List.reverse_append,
    List.reverse_append, ← List.map_reverse, middleFunctions, middleDiagnostics, earlierFunctions,
    earlierDiagnostics]
  rfl

/-- A definition that breaks off before its second line. -/
theorem parse_append_of_broken_definition :
    EndsWithSemicolon "def f\n;" ∧
      ∃ earlier later,
        (parse (Source.ofText Source.standardChunkSize "def f\n;")).outcome = .ok earlier ∧
        (parse (Source.ofText Source.standardChunkSize "def g() ;")).outcome = .ok later ∧
        (parse (Source.ofText Source.standardChunkSize ("def f\n;" ++ "def g() ;"))).outcome =
          .ok ⟨earlier.functions ++ later.functions,
            earlier.diagnostics ++ later.diagnostics.map (.moved 1)⟩ := by
  have semicolon : (Lexer.facing ['\n', ';'] "f" 1).Reads [⟨.semicolon, ";", 2⟩] (.facing [] ";" 2) :=
    @Lexer.Reads.more _ (.facing [] ";" 2) _ .semicolon _ rfl (by decide) (.none _)
  have name : (Lexer.facing [' ', 'f', '\n', ';'] "def" 1).Reads
      [⟨.identifier, "f", 1⟩, ⟨.semicolon, ";", 2⟩] (.facing [] ";" 2) :=
    @Lexer.Reads.more _ (.facing ['\n', ';'] "f" 1) _ .identifier _ rfl (by decide) semicolon
  have reads : (Lexer.facing (' ' :: "def f\n;".toList) "" 1).Reads
      ([⟨.define, "def", 1⟩, ⟨.identifier, "f", 1⟩] ++ [⟨.semicolon, ";", 2⟩]) (.facing [] ";" 2) :=
    @Lexer.Reads.more _ (.facing [' ', 'f', '\n', ';'] "def" 1) _ .define _ rfl (by decide) name
  have ends : EndsWithSemicolon "def f\n;" := by
    rw [← Lexer.ofSource_ofText] at reads
    exact ⟨_, _, _, reads, rfl, rfl⟩
  exact ⟨ends, parse_append_of_semicolon _ _ ends⟩

end Compile

end ExprWasm
