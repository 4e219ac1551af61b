import ExprWasm.Proofs.Phrase.Rounds
import ExprWasm.Proofs.Token.Reads

/-! The programs without syntax errors are those of the grammar.

Every text is read to its end as a closed list of tokens, on which the rounds of the loop decide. -/

set_option autoImplicit false

namespace ExprWasm.Compile

open Token (Kind Lexed Lexer)
open Phrase (Closed Derives Findings Rounds kinds kinds_append kinds_cons parse_of_rounds)

def ending (line : Int) : Lexed :=
  ⟨.endOfInput, "", line⟩

section Text

variable {text : String} {tokens : List Lexed} {line : Int}
  (finishes : (Lexer.ofSource (Source.ofText Source.standardChunkSize text)).Finishes tokens line)

include finishes

theorem closed_of_finishes : Closed (tokens ++ [ending line]) := by
  obtain ⟨absent, readable⟩ := finishes.tokens_ofText
  exact Closed.of_boundary rfl absent readable

theorem parse_of_finishes
    {later : Findings} (rounds : Rounds {} (tokens ++ [ending line]) later [ending line]) :
    (parse (Source.ofText Source.standardChunkSize text)).outcome =
      .ok ⟨later.functions.reverse, later.diagnostics.reverse⟩ := by
  have listed := finishes.listing
  have closed := closed_of_finishes finishes
  unfold ending at rounds closed
  rw [← listed] at rounds closed
  exact parse_of_rounds closed rounds rfl

end Text

/-- Every text is read, and without a diagnostic exactly if the kinds of its tokens before the end
of the input make a program of the grammar. -/
theorem parse_silent_iff_derives (text : String) :
    ∃ program word,
      (parse (Source.ofText Source.standardChunkSize text)).outcome = .ok program ∧
      kinds (Lexer.ofSource (Source.ofText Source.standardChunkSize text)).listing.tokens =
        word ++ [.endOfInput] ∧
      .endOfInput ∉ word ∧
      (program.diagnostics = [] ↔ Derives .program word) := by
  obtain ⟨tokens, line, finishes⟩ := Lexer.exists_finishes_ofText text
  obtain ⟨absent, readable⟩ := finishes.tokens_ofText
  have closed := closed_of_finishes finishes
  obtain ⟨later, rounds⟩ := Rounds.exist_to_end rfl closed {}
  have parsed := parse_of_finishes finishes rounds
  refine ⟨_, kinds tokens, parsed, ?_, ?_, ?_, ?_⟩
  · rw [finishes.listing, kinds_append]
    rfl
  · intro member
    obtain ⟨token, inside, same⟩ := List.mem_map.mp member
    exact absent token inside same
  · intro silent
    obtain ⟨body, split, derived⟩ := rounds.derives closed
      (congrArg List.length (List.reverse_eq_nil_iff.mp silent))
    rw [List.append_cancel_right split]
    exact derived
  · intro derived
    obtain ⟨other, otherRounds, silent⟩ :=
      Rounds.of_derives derived rfl readable [ending line] {}
    have same := Except.ok.inj (parsed.symm.trans (parse_of_finishes finishes otherRounds))
    rw [congrArg Program.diagnostics same, silent]
    rfl

end ExprWasm.Compile
