import ExprWasm.Proofs.Token.Reads

/-! Texts put together after a semicolon.

A semicolon is a token whatever follows it. So a text that ends with one is read in the same way
when another follows, and the tokens of the other text are the same except for their lines. -/

set_option autoImplicit false

namespace ExprWasm.Token

open Source (isLineBreak)

/-! ### Lines further down -/

def Lexed.moved (lines : Int) (token : Lexed) : Lexed :=
  { token with line := token.line + lines }

theorem Layout.pass?_moved (inComment : Bool) (line lines : Int) (c : Char) :
    pass? ⟨inComment, line + lines⟩ c =
      (pass? ⟨inComment, line⟩ c).map fun passed => ⟨passed.inComment, passed.line + lines⟩ := by
  unfold pass?
  grind

theorem skip_moved (inComment : Bool) (line lines : Int) (text : List Char) :
    skip ⟨inComment, line + lines⟩ text =
      ((skip ⟨inComment, line⟩ text).1 + lines, (skip ⟨inComment, line⟩ text).2) := by
  induction text generalizing inComment line with
  | nil => rfl
  | cons c text inductionHypothesis =>
      rw [skip, skip, Layout.pass?_moved]
      cases Layout.pass? ⟨inComment, line⟩ c with
      | none => rfl
      | some passed => exact inductionHypothesis passed.inComment passed.line

namespace Lexer

theorem Reads.moved
    {text : List Char} {lexeme : String} {line : Int} {tokens : List Lexed} {last : Lexer}
    (reads : (facing text lexeme line).Reads tokens last) (lines : Int) :
    ∃ rest final ending, last = facing rest final ending ∧
      (facing text lexeme (line + lines)).Reads (tokens.map (Lexed.moved lines))
        (facing rest final (ending + lines)) := by
  generalize begins : facing text lexeme line = lexer at reads
  induction reads generalizing text lexeme line with
  | none lexer => exact ⟨text, lexeme, line, begins.symm, Reads.none _⟩
  | @more lexer after last kind tokens read inside _ inductionHypothesis =>
      subst begins
      obtain ⟨start, c, rest, skipped, spelled, reached⟩ := next_facing_cases read inside
      obtain ⟨remaining, final, ending, same, others⟩ := inductionHypothesis reached.symm
      refine ⟨remaining, final, ending, same, ?_⟩
      have skippedMoved := skip_moved false line lines text
      rw [skipped] at skippedMoved
      subst reached spelled
      exact Reads.more (next_of_skip skippedMoved lexeme) inside others

theorem Finishes.moved
    {text : List Char} {lexeme : String} {line ending : Int} {tokens : List Lexed}
    (finishes : (facing text lexeme line).Finishes tokens ending) (lines : Int) :
    (facing text lexeme (line + lines)).Finishes (tokens.map (Lexed.moved lines))
      (ending + lines) := by
  obtain ⟨last, reads, ends⟩ := finishes
  obtain ⟨rest, final, reached, same, readsMoved⟩ := reads.moved lines
  refine ⟨_, readsMoved, ?_⟩
  subst same
  rw [next_facing] at ends ⊢
  rw [skip_moved]
  cases skipped : skip ⟨false, reached⟩ rest with
  | mk start remaining =>
      rw [skipped] at ends
      cases remaining with
      | nil =>
          cases ends
          rfl
      | cons c remaining =>
          have found := congrArg Prod.fst ends
          exact absurd (Except.ok.inj found) (spell_kind_ne_endOfInput c remaining)

/-! ### What follows -/

theorem Reads.of_empty
    {lexeme : String} {line : Int} {tokens : List Lexed} {last : Lexer}
    (reads : (facing [] lexeme line).Reads tokens last) : last = facing [] lexeme line := by
  cases reads with
  | none lexer => rfl
  | more read inside others =>
      cases read
      exact absurd rfl inside

theorem facing_ne_empty
    {text : List Char} (going : text ≠ []) (lexeme other : String) (line ending : Int) :
    facing text lexeme line ≠ facing [] other ending := by
  intro same
  cases text with
  | nil => exact going rfl
  | cons c text => cases congrArg Lexer.lookahead same

/-- A run that stops inside a text is the same when the text goes on. -/
theorem Reads.append
    {text : List Char} {lexeme : String} {line : Int} {tokens : List Lexed} {last : Lexer}
    (reads : (facing text lexeme line).Reads tokens last) (more : List Char) :
    ∃ rest final ending, last = facing rest final ending ∧
      (rest ≠ [] → (facing (text ++ more) lexeme line).Reads tokens
        (facing (rest ++ more) final ending)) := by
  generalize begins : facing text lexeme line = lexer at reads
  induction reads generalizing text lexeme line with
  | none lexer => exact ⟨text, lexeme, line, begins.symm, fun _ => Reads.none _⟩
  | @more lexer after last kind tokens read inside others inductionHypothesis =>
      subst begins
      obtain ⟨start, c, rest, skipped, spelled, reached⟩ := next_facing_cases read inside
      obtain ⟨remaining, final, ending, same, later⟩ := inductionHypothesis reached.symm
      refine ⟨remaining, final, ending, same, ?_⟩
      intro going
      subst reached spelled
      -- Had the token reached the end of the text, the run would have ended there.
      have inner : (spell c rest).rest ≠ [] := by
        intro empty
        rw [empty] at others
        exact facing_ne_empty going _ _ _ _ (same.symm.trans others.of_empty)
      have again := next_of_skip (skip_append skipped more) lexeme
      rw [spell_append inner] at again
      have going := Reads.more again inside (later going)
      exact going

/-- A run that ends with a semicolon at the end of a text is the same when the text goes on. -/
theorem Reads.append_semicolon
    {text : List Char} {lexeme : String} {line : Int} {before : List Lexed} {semicolon : Lexed}
    {after : Lexer} (reads : (facing text lexeme line).Reads (before ++ [semicolon]) after)
    (isSemicolon : semicolon.kind = .semicolon) (atEnd : after.lookahead = .endOfInput)
    (more : List Char) :
    ∃ final ending, after = facing [] final ending ∧
      (facing (text ++ more) lexeme line).Reads (before ++ [semicolon]) (facing more final ending) := by
  obtain ⟨middle, readsBefore, read, inside, same⟩ := reads.last
  obtain ⟨rest, final, ending, reached, later⟩ := readsBefore.append more
  subst reached
  obtain ⟨start, c, remaining, skipped, spelled, ends⟩ := next_facing_cases read inside
  rw [isSemicolon] at spelled
  cases eq_semicolon_of_spell spelled.symm
  have going : rest ≠ [] := by
    intro empty
    rw [empty] at skipped
    cases skipped
  have nothing : remaining = [] := by
    rw [ends] at atEnd
    cases remaining with
    | nil => rfl
    | cons c remaining => cases atEnd
  subst nothing ends
  have again := next_of_skip (skip_append skipped more) final
  refine ⟨_, start, rfl, (later going).trans ?_⟩
  have single := Reads.more again (spell_kind_ne_endOfInput _ _) (Reads.none _)
  rw [same, isSemicolon]
  exact single

theorem finishes_append
    (first second : String) {before : List Lexed} {semicolon : Lexed} {after : Lexer}
    (reads : (ofSource (Source.ofText Source.standardChunkSize first)).Reads
      (before ++ [semicolon]) after)
    (isSemicolon : semicolon.kind = .semicolon) (atEnd : after.lookahead = .endOfInput)
    {tokens : List Lexed} {ending : Int}
    (finishes : (ofSource (Source.ofText Source.standardChunkSize second)).Finishes tokens ending) :
    (∃ line, (ofSource (Source.ofText Source.standardChunkSize first)).Finishes
        (before ++ [semicolon]) line) ∧
      (ofSource (Source.ofText Source.standardChunkSize (first ++ second))).Finishes
        (before ++ [semicolon] ++ tokens.map (Lexed.moved (first.toList.countP isLineBreak)))
        (ending + first.toList.countP isLineBreak) := by
  rw [ofSource_ofText] at reads finishes ⊢
  rw [ofSource_ofText, String.toList_append]
  obtain ⟨final, line, reached, readsOn⟩ :=
    reads.append_semicolon isSemicolon atEnd second.toList
  constructor
  · refine ⟨line, after, reads, ?_⟩
    rw [reached, next_facing]
    rfl
  · obtain ⟨⟨rest, lexeme, counted, same, lines⟩, _⟩ := reads.facing_text
    have nothing : rest = [] := by
      cases rest with
      | nil => rfl
      | cons c rest =>
          exact absurd (same.symm.trans reached) (facing_ne_empty (List.cons_ne_nil _ _) _ _ _ _)
    have atLine : line = 1 + first.toList.countP isLineBreak := by
      have sameLine : counted = line := congrArg Lexer.line (same.symm.trans reached)
      rw [nothing, sameLine, List.countP_cons_of_neg (by decide)] at lines
      simpa using lines
    have moved := finishes.moved (first.toList.countP isLineBreak)
    rw [← atLine] at moved
    exact Finishes.after readsOn (Finishes.of_next_eq (next_facing_blank _ _ _ _) moved)

end Lexer

end ExprWasm.Token
