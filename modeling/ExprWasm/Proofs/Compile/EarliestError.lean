import ExprWasm.Proofs.Phrase.Course

/-! Where the first diagnostic of a source is made.

It is made at the earliest token where it can be: those drawn before could still have become a
program of the grammar, and with the lookahead they cannot. -/

set_option autoImplicit false

namespace ExprWasm.Compile

open Phrase (Derives Intake Marks Note Parser kinds)
open Source (Chunk)
open Token (Lexed Lexer)

/-- The tokens drawn before the lookahead of a note begin a program of the grammar. With the
lookahead they begin none, and before the end of the input they are none. -/
inductive Earliest (tokens : List Lexed) : Note → Prop where
  | of {before after : List Lexed} {lookahead : Lexed} {diagnostic : Diagnostic}
      (split : tokens = before ++ lookahead :: after)
      (viable : ∃ word, Derives .program (kinds before ++ word))
      (dead : ∀ word, ¬ Derives .program (kinds before ++ lookahead.kind :: word))
      (unfinished : lookahead.kind = .endOfInput → ¬ Derives .program (kinds before)) :
      Earliest tokens ⟨diagnostic, (before ++ [lookahead]).reverse⟩

theorem earliest_of_marks
    {tokens : List Lexed} {note : Note} (readable : Phrase.Readable tokens)
    (marks : Marks tokens note) : Earliest tokens note := by
  cases marks with
  | @of rest before after lookahead diagnostic silent complains split =>
      obtain ⟨seen, splitSeen, viable, dead, unfinished⟩ :=
        Phrase.first_error_earliest readable silent complains
      have same : before.reverse = seen := List.append_cancel_right (split.symm.trans splitSeen)
      have earliest :=
        @Earliest.of tokens seen after lookahead diagnostic splitSeen viable dead unfinished
      rw [← same, List.reverse_append, List.reverse_reverse] at earliest
      exact earliest

/-- The diagnostics of every source are the notes of a parser that draws its tokens, and the first
of them is made at the earliest token. -/
theorem first_diagnostic_earliest (source : List Chunk) (earlier : List Diagnostic) :
    ∃ final : Intake,
      (Parser.ofSource source earlier).parseOnDemand.intake? = some final ∧
      (Parser.ofSource source earlier).parse.parser.diagnostics =
        earlier ++ final.notes.reverse.map Note.diagnostic ∧
      ∀ first later, final.notes.reverse = first :: later →
        Earliest (Lexer.ofSource source).listing.tokens first := by
  have readable : Phrase.Readable (Lexer.ofSource source).listing.tokens :=
    (@Lexer.listing_supplies (Lexer.ofSource source) .noToken (by decide)).readable
  obtain ⟨final, reached, settles⟩ := (Parser.ofSource source earlier).parseOnDemand_agrees.settled
  refine ⟨final, reached, ?_, ?_⟩
  · rw [settles.after, List.map_reverse]
    rfl
  · intro first later notes
    apply earliest_of_marks readable
    apply settles.first
    rw [← List.head?_reverse, notes]
    rfl

end ExprWasm.Compile
