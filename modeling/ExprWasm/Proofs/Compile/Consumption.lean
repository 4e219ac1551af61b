import ExprWasm.Proofs.Compile.Completion
import ExprWasm.Proofs.Phrase.Course
import ExprWasm.Proofs.Token.Lexicon

/-! What the reading of a source costs.

A source whose tokens can all be listed is read to the end of the input: every token is drawn once,
none after the end of the input, and there are no more diagnostics than tokens. -/

set_option autoImplicit false

namespace ExprWasm

namespace Phrase

open Token (Lexed)

/-- A round makes no more diagnostics than it takes tokens, except that one which skips to the end
of the input may make one more. -/
theorem round_cost
    {token : Lexed} {rest : List Lexed} (complete : Complete (token :: rest))
    (inside : token.kind ≠ .endOfInput) (findings : Findings) :
    ∃ later left, Descent.round findings (token :: rest) = (later, left) ∧
      (later.diagnostics.length + left.length ≤
          findings.diagnostics.length + (token :: rest).length ∨
        ∃ ending after, left = ending :: after ∧ ending.kind = .endOfInput ∧
          later.diagnostics.length + left.length ≤
            findings.diagnostics.length + (token :: rest).length + 1) := by
  unfold Descent.round
  rcases item_cases complete findings with
    ⟨function, taken, next, after, _, splits, _, reads⟩ |
    ⟨diagnostic, later, taken, boundary, after, splits, bounds, reads, _, diagnostics⟩
  · have count := congrArg List.length splits.split
    simp only [List.length_append, List.length_cons] at count
    rw [reads]
    by_cases isSemicolon : next.kind = .semicolon
    · rw [terminator_of_semicolon isSemicolon]
      refine ⟨_, _, rfl, Or.inl ?_⟩
      simp only [Findings.define, List.length_cons]
      omega
    · rw [terminator_of_other isSemicolon]
      refine ⟨_, _, rfl, Or.inl ?_⟩
      simp only [Findings.diagnose, Findings.define, List.length_cons]
      omega
  · have count := congrArg List.length splits.split
    simp only [List.length_append, List.length_cons] at count
    rw [reads]
    by_cases isSemicolon : boundary.kind = .semicolon
    · rw [terminator_of_semicolon isSemicolon]
      refine ⟨_, _, rfl, Or.inl ?_⟩
      simp only [diagnostics, List.length_cons]
      omega
    · have isEnding : boundary.kind = .endOfInput := by
        unfold isBoundary at bounds
        rw [decide_eq_false isSemicolon, Bool.or_false] at bounds
        exact of_decide_eq_true bounds
      rw [terminator_of_other isSemicolon]
      refine ⟨_, _, rfl, Or.inr ⟨boundary, after, rfl, isEnding, ?_⟩⟩
      cases taken with
      | nil =>
          cases splits.split
          exact absurd isEnding inside
      | cons first others =>
          simp only [Findings.diagnose, diagnostics, List.length_cons] at count ⊢
          omega

theorem Rounds.cost
    {findings later : Findings} {tokens remaining : List Lexed}
    (rounds : Rounds findings tokens later remaining) (closed : Closed tokens) :
    later.diagnostics.length + remaining.length ≤ findings.diagnostics.length + tokens.length + 1 := by
  induction rounds with
  | none findings tokens => exact Nat.le_succ _
  | @more findings later token rest remaining inside others inductionHypothesis =>
      have further := inductionHypothesis (closed.round inside findings)
      obtain ⟨next, left, reads, within | ⟨ending, after, rfl, isEnding, within⟩⟩ :=
        round_cost closed.complete inside findings
      · rw [reads] at further
        exact Nat.le_trans further (Nat.succ_le_succ within)
      · -- The end of the input is reached, so that no further round can make a diagnostic.
        rw [reads] at others
        cases others with
        | none => exact within
        | more goesOn => exact absurd isEnding goesOn

end Phrase

namespace Compile

open Phrase (Intake Parser Rounds Unended)
open Source (Chunk)
open Token (Lexed Lexer)

/-- A parser draws the tokens of a source, each of them once and the end of the input as the last,
and comes to what the reading of their list comes to. -/
structure Consumed (source : List Chunk) (earlier : List Diagnostic) (body : List Lexed)
    (ending : Lexed) (final : Intake) : Prop where
  listed : (Lexer.ofSource source).listing.tokens = body ++ [ending]
  unended : Unended body
  isEnding : ending.kind = .endOfInput
  returns : (Parser.ofSource source earlier).parseOnDemand = .found () final
  calls : final.drawn.length = body.length + 1
  drawn : final.drawn.reverse = body ++ [ending]
  outcome : (Parser.ofSource source earlier).parse.outcome = .ok ()
  parser : (Parser.ofSource source earlier).parse.parser = final.parser earlier
  token : (Parser.ofSource source earlier).parse.parser.token = .endOfInput
  diagnostics : (Parser.ofSource source earlier).parse.parser.diagnostics.length ≤
    earlier.length + (body.length + 1)

/-- There are no more diagnostics than tokens. -/
theorem diagnostics_length_le
    {source : List Chunk} (complete : (Lexer.ofSource source).listing.failure = none)
    (earlier : List Diagnostic) :
    (Parser.ofSource source earlier).parse.parser.diagnostics.length ≤
      earlier.length + (Lexer.ofSource source).listing.tokens.length := by
  obtain ⟨body, ending, split, isEnding, _, closed⟩ := listing_closed complete
  obtain ⟨later, rounds⟩ :=
    Rounds.exist_to_end isEnding closed (Parser.ofSource source earlier).findings
  have cost := rounds.cost closed
  rw [← split] at closed rounds cost
  have read : Phrase.program (Parser.ofSource source earlier).findings
      (Parser.ofSource source earlier).lexer.listing.tokens = (later, .complete) :=
    Phrase.programWithin_of_rounds rounds isEnding closed (Nat.le_refl _) (Nat.lt_succ_self _)
  rw [Parser.parse_after read]
  simp only [Parser.findings, Parser.ofSource, List.length_reverse, List.length_singleton] at cost ⊢
  omega

/-- A source without a failure is read to its end, with one call for each token and at most one
diagnostic for each call. -/
theorem source_drawn_once
    {source : List Chunk} (complete : (Lexer.ofSource source).listing.failure = none)
    (earlier : List Diagnostic) :
    ∃ body ending final, Consumed source earlier body ending final := by
  obtain ⟨body, ending, listed, isEnding, unended, _⟩ := listing_closed complete
  have few := diagnostics_length_le complete earlier
  rw [listed, List.length_append, List.length_singleton] at few
  have agrees := (Parser.ofSource source earlier).parseOnDemand_agrees
  generalize returns : (Parser.ofSource source earlier).parseOnDemand = drawn at agrees
  cases agrees with
  | @complete final outcome _ isLast settles =>
      have drawn : final.drawn.reverse = body ++ [ending] := settles.drawn.trans listed
      have calls := congrArg List.length drawn
      rw [List.length_reverse, List.length_append, List.length_singleton] at calls
      have token : (Parser.ofSource source earlier).parse.parser.token = .endOfInput := by
        rw [settles.after]
        exact isLast
      exact ⟨body, ending, final,
        { listed, unended, isEnding, returns, calls, drawn, outcome, parser := settles.after, token,
          diagnostics := few }⟩
  | interrupted _ failed _ =>
      change (Lexer.ofSource source).listing.failure = _ at failed
      rw [complete] at failed
      cases failed

/-- A name stands where a definition should. -/
theorem name_drawn_once :
    (Lexer.ofSource (Source.ofText Source.standardChunkSize "x")).listing.failure = none ∧
      ∃ body ending final,
        Consumed (Source.ofText Source.standardChunkSize "x") [] body ending final := by
  obtain ⟨tokens, line, finishes⟩ := Lexer.exists_finishes_ofText "x"
  exact ⟨finishes.failure, source_drawn_once finishes.failure []⟩

end Compile

end ExprWasm
