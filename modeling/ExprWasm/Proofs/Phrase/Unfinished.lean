import ExprWasm.Proofs.Phrase.Lookahead
import ExprWasm.Proofs.Phrase.Rounds

/-! Programs whose tokens run out.

Where the end of the input is missing no reading of a program is complete: it goes on through all
the tokens and is then interrupted, whatever errors there were before. -/

set_option autoImplicit false

namespace ExprWasm.Phrase

open Token (Kind Lexed)
open ExprWasm.Tree (Function)

theorem skipToBoundary_suffix (skipped : Nat) (tokens : List Lexed) :
    (skipToBoundary skipped tokens).2 <:+ tokens := by
  induction tokens generalizing skipped with
  | nil => exact List.suffix_refl _
  | cons token rest inductionHypothesis =>
      rw [skipToBoundary]
      split
      · exact List.suffix_refl _
      · exact (inductionHypothesis (skipped + 1)).trans (List.suffix_cons token rest)

theorem recover_suffix (findings : Findings) (tokens : List Lexed) :
    (recover findings tokens).2 <:+ tokens := by
  rw [(recover_fields findings tokens).2.2]
  exact skipToBoundary_suffix 0 tokens

theorem terminator_suffix (findings : Findings) (tokens : List Lexed) :
    (terminator findings tokens).2 <:+ tokens := by
  cases tokens with
  | nil => exact List.suffix_refl _
  | cons token rest =>
      rw [terminator]
      split
      · exact List.suffix_cons token rest
      · exact List.suffix_refl _

theorem allowanceFor_suffix
    {tokens rest : List Lexed} (suffix : rest <:+ tokens) :
    allowanceFor rest ≤ allowanceFor tokens := by
  have fewer := suffix.length_le
  unfold allowanceFor
  omega

section Round

variable {token : Lexed} {rest : List Lexed} (readable : Readable (token :: rest))
  (inside : token.kind ≠ .endOfInput)

include readable inside

/-- One turn of the loop is a round, also where the tokens run out in it. -/
theorem programWithin_round
    {allowance : Nat} (enough : allowanceFor (token :: rest) ≤ allowance) (items : Nat)
    (findings : Findings) :
    programWithin allowance (items + 1) findings (token :: rest) =
      programWithin allowance items (Descent.round findings (token :: rest)).1
        (Descent.round findings (token :: rest)).2 := by
  have enoughRest := Nat.le_trans (allowanceFor_suffix (List.suffix_cons token rest)) enough
  rw [programWithin, if_neg inside, itemWithin, definitionWithin_eq enoughRest, Descent.round,
    Descent.item]
  by_cases isDefine : token.kind = .define
  · rw [if_pos isDefine, if_pos isDefine]
    have remains := definition_remains readable.tail
    cases found : Descent.definition rest with
    | accepted function left => rfl
    | rejected diagnostic left => rfl
    | interrupted =>
        -- No token is left for the next turn.
        cases items with
        | zero => rfl
        | succ items => rfl
    | failed failure =>
        rw [found] at remains
        exact remains.elim
  · rw [if_neg isDefine, if_neg isDefine]

/-- A round takes the first token. -/
theorem round_suffix (findings : Findings) :
    (Descent.round findings (token :: rest)).2 <:+ rest := by
  rw [Descent.round, Descent.item]
  by_cases isDefine : token.kind = .define
  · rw [if_pos isDefine]
    refine (terminator_suffix _ _).trans ?_
    have remains := definition_remains readable.tail
    cases found : Descent.definition rest with
    | accepted function left =>
        rw [found] at remains
        exact remains
    | rejected diagnostic left =>
        rw [found] at remains
        exact (recover_suffix _ left).trans remains
    | interrupted => exact List.nil_suffix
    | failed failure => exact List.nil_suffix
  · rw [if_neg isDefine, (recover_fields _ _).2.2, skipToBoundary]
    by_cases isSemicolon : token.kind = .semicolon
    · have terminated (found : Findings) : (terminator found (token :: rest)).2 = rest := by
        rw [terminator_of_semicolon isSemicolon]
      rw [isSemicolon, if_pos (by rfl)]
      exact ⟨[], terminated _⟩
    · have unbounded : isBoundary token.kind = false := by
        rw [isBoundary, decide_eq_false inside, decide_eq_false isSemicolon]
        rfl
      rw [unbounded, if_neg Bool.false_ne_true]
      exact (terminator_suffix _ _).trans (skipToBoundary_suffix 1 rest)

end Round

theorem programWithin_interrupted
    {tokens : List Lexed} (unended : Unended tokens) (readable : Readable tokens)
    {allowance : Nat} (enough : allowanceFor tokens ≤ allowance) (items : Nat)
    (findings : Findings) :
    (programWithin allowance items findings tokens).2 = .interrupted := by
  induction items generalizing tokens findings with
  | zero => rfl
  | succ items inductionHypothesis =>
      cases tokens with
      | nil => rfl
      | cons token rest =>
          have inside := unended token (List.mem_cons_self ..)
          have suffix := (round_suffix readable inside findings).trans (List.suffix_cons token rest)
          rw [programWithin_round readable inside enough]
          exact inductionHypothesis (fun other member => unended other (suffix.subset member))
            (readable.of_suffix suffix) (Nat.le_trans (allowanceFor_suffix suffix) enough) _

theorem parse_of_unended
    {source : List Source.Chunk} {failure : Failure}
    (failed : (Token.Lexer.ofSource source).listing.failure = some failure)
    (unended : Unended (Token.Lexer.ofSource source).listing.tokens)
    (readable : Readable (Token.Lexer.ofSource source).listing.tokens) :
    (Compile.parse source).outcome = .error failure := by
  have read : program (Parser.ofSource source []).findings
      (Parser.ofSource source []).lexer.listing.tokens = (_, .interrupted) :=
    Prod.ext rfl (programWithin_interrupted unended readable (Nat.le_refl _) _ _)
  simp only [Compile.parse, Parser.parse_outcome_of_interrupted read rfl failed]

end ExprWasm.Phrase
