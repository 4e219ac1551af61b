import ExprWasm.Proofs.Token.Pieces

/-! Where the tokens of a text begin, and on which lines.

The lexer counts a line when it passes a line break, and it passes the gap before a token only when
the token is asked for. So the line of a token is that of its first character, and the lines of the
tokens of a text do not descend. -/

set_option autoImplicit false

namespace ExprWasm.Token

open Source (isLineBreak)

inductive Leads : (front : List Char) → List Lexed → (rest : List Char) → Prop where
  | gap {gap rest : List Char} (isGap : MaximalGap gap rest) : Leads gap [] rest
  | word {gap front rest : List Char} {token : Lexed} {tokens : List Lexed}
      (isGap : MaximalGap gap (token.lexeme.toList ++ (front ++ rest)))
      (isWord : Longest token.kind token.lexeme.toList (token.lexeme.toList ++ (front ++ rest)))
      (others : Leads front tokens rest) :
      Leads (gap ++ (token.lexeme.toList ++ front)) (token :: tokens) rest

/-- The first character of the token is the one after `front`, where the words of the earlier tokens
stand. The end of the input begins where the text ends. -/
inductive BeginsAfter (text : List Char) (before : List Lexed) (token : Lexed) (front : List Char) :
    Prop where
  | word {rest : List Char} (split : text = front ++ rest) (leads : Leads front before rest)
      (isWord : Longest token.kind token.lexeme.toList rest)
  | ending (whole : text = front) (leads : Leads front before [])
      (isEnding : token.kind = .endOfInput)

theorem BeginsAfter.isPrefix
    {text front : List Char} {before : List Lexed} {token : Lexed}
    (begins : BeginsAfter text before token front) : front <+: text := by
  cases begins with
  | @word rest split _ _ => exact ⟨rest, split.symm⟩
  | ending whole _ _ => exact ⟨[], by rw [whole, List.append_nil]⟩

namespace BeginsAfter

variable {text front : List Char} {before : List Lexed} {token : Lexed}

theorem whole (begins : BeginsAfter text before token front) (isEnding : token.kind = .endOfInput) :
    front = text := by
  cases begins with
  | word _ _ isWord => exact absurd isEnding isWord.isWord.kind_ne_endOfInput
  | ending whole _ _ => exact whole.symm

theorem spelled (begins : BeginsAfter text before token front) (inside : token.kind ≠ .endOfInput) :
    front ++ token.lexeme.toList <+: text := by
  cases begins with
  | word split _ isWord =>
      rw [split]
      exact (List.prefix_append_right_inj front).mpr isWord.begins
  | ending _ _ isEnding => exact absurd isEnding inside

end BeginsAfter

theorem countP_isLineBreak (text : List Char) :
    text.countP isLineBreak = text.count '\r' + text.count '\n' := by
  induction text with
  | nil => rfl
  | cons c text inductionHypothesis =>
      rw [List.countP_cons, List.count_cons, List.count_cons, inductionHypothesis]
      by_cases breaks : isLineBreak c = true
      · rcases eq_of_isLineBreak breaks with rfl | rfl
        · simp [breaks]
          omega
        · simp [breaks]
          omega
      · have noReturn : c ≠ '\r' := fun same => breaks (by rw [same]; rfl)
        have noFeed : c ≠ '\n' := fun same => breaks (by rw [same]; rfl)
        simp [breaks, noReturn, noFeed]

/-- A line is counted for every line break of the gap that is skipped. -/
theorem skip_line_eq
    {line start : Int} {gap rest : List Char}
    (skipped : skip ⟨false, line⟩ (gap ++ rest) = (start, rest)) :
    start = line + (gap.countP isLineBreak : Int) := by
  have counted := skip_lines ⟨false, line⟩ (gap ++ rest)
  rw [skipped, List.countP_append] at counted
  simp only at counted
  omega

namespace Lexer

variable {text : List Char} {lexeme : String} {line ending : Int}

structure Places (text : List Char) (line : Int) (token : Lexed) (gap rest : List Char) : Prop where
  split : text = gap ++ (token.lexeme.toList ++ rest)
  isGap : MaximalGap gap (token.lexeme.toList ++ rest)
  isWord : Longest token.kind token.lexeme.toList (token.lexeme.toList ++ rest)
  counted : token.line = line + (gap.countP isLineBreak : Int)
  unbroken : token.lexeme.toList.countP isLineBreak = 0

theorem next_places
    {kind : Kind} {after : Lexer} (read : (facing text lexeme line).next = (.ok kind, after))
    (inside : kind ≠ .endOfInput) :
    ∃ gap rest, Places text line (after.lexed kind) gap rest ∧
      after = facing rest after.lexeme after.line := by
  obtain ⟨start, c, ahead, skipped, rfl, rfl⟩ := next_facing_cases read inside
  obtain ⟨gap, split, isGap⟩ := skip_maximalGap line text
  have stops := skip_stops ⟨false, line⟩ text
  rw [skipped] at split isGap stops
  obtain ⟨noBlank, noComment⟩ := stops c rfl
  have isWord := spell_longest noBlank noComment ahead
  have parts := spell_split c ahead
  have lines := spell_lines (not_isLineBreak_of_skip skipped) ahead
  refine ⟨gap, (spell c ahead).rest, ?_, rfl⟩
  generalize spell c ahead = spelling at isWord parts lines
  obtain ⟨kind, word, rest⟩ := spelling
  simp only at split isGap isWord parts lines
  rw [← parts] at split isGap isWord lines
  rw [split, ← parts] at skipped
  rw [List.countP_append] at lines
  constructor
  case counted => exact skip_line_eq skipped
  all_goals
    simp only [lexed, facing, String.toList_ofList]
  case split => exact split
  case isGap => exact isGap
  case isWord => exact isWord
  case unbroken => omega

/-- After some tokens the lexer stands before the gap in front of the next one. Behind that gap it
has counted the line breaks that the text has up to there. -/
theorem Reads.stands
    {tokens : List Lexed} {last : Lexer} (reads : (facing text lexeme line).Reads tokens last) :
    ∃ ahead final reached front start rest, last = facing ahead final reached ∧
      skip ⟨false, reached⟩ ahead = (start, rest) ∧ text = front ++ rest ∧
      Leads front tokens rest ∧ start = line + (front.countP isLineBreak : Int) := by
  generalize begins : facing text lexeme line = lexer at reads
  induction reads generalizing text lexeme line with
  | none lexer =>
      obtain ⟨gap, split, isGap⟩ := skip_maximalGap line text
      cases skipped : skip ⟨false, line⟩ text with
      | mk start rest =>
          rw [skipped] at split isGap
          refine ⟨text, lexeme, line, gap, start, rest, begins.symm, skipped, split, .gap isGap, ?_⟩
          rw [split] at skipped
          exact skip_line_eq skipped
  | @more lexer after last kind tokens read inside _ inductionHypothesis =>
      subst begins
      obtain ⟨gap, left, places, sameAfter⟩ := next_places read inside
      obtain ⟨ahead, final, reached, front, start, rest, same, skipped, rfl, leads, counted⟩ :=
        inductionHypothesis sameAfter.symm
      refine ⟨ahead, final, reached, gap ++ ((after.lexed kind).lexeme.toList ++ front), start, rest,
        same, skipped, ?_, .word places.isGap places.isWord leads, ?_⟩
      · rw [places.split, List.append_assoc, List.append_assoc]
      · have lineOf : after.line = line + (gap.countP isLineBreak : Int) := places.counted
        rw [List.countP_append, List.countP_append, places.unbroken, counted, lineOf]
        omega

/-- The lines of the tokens do not descend, from the line at the beginning to that at the end. -/
theorem Reads.ascend
    {tokens : List Lexed} {last : Lexer} (reads : (facing text lexeme line).Reads tokens last) :
    (line :: (tokens.map Lexed.line ++ [last.line])).Pairwise (· ≤ ·) := by
  generalize begins : facing text lexeme line = lexer at reads
  induction reads generalizing text lexeme line with
  | none lexer =>
      subst begins
      exact .cons (List.forall_mem_singleton.mpr (Int.le_refl _)) (List.pairwise_singleton _ _)
  | @more lexer after last kind tokens read inside _ inductionHypothesis =>
      subst begins
      obtain ⟨gap, left, places, sameAfter⟩ := next_places read inside
      have later := inductionHypothesis sameAfter.symm
      have lineOf : after.line = line + (gap.countP isLineBreak : Int) := places.counted
      have ascends : line ≤ after.line := by omega
      refine .cons ?_ later
      intro other member
      rcases List.mem_cons.mp member with rfl | further
      · exact ascends
      · exact Int.le_trans ascends ((List.pairwise_cons.mp later).1 other further)

theorem skip_of_ending
    (ends : (facing text lexeme line).next = (.ok .endOfInput, facing [] "" ending)) :
    skip ⟨false, line⟩ text = (ending, []) := by
  rw [next_facing] at ends
  cases skipped : skip ⟨false, line⟩ text with
  | mk start rest =>
      rw [skipped] at ends
      cases rest with
      | nil =>
          cases ends
          rfl
      | cons c rest =>
          have found := congrArg Prod.fst ends
          exact absurd (Except.ok.inj found) (spell_kind_ne_endOfInput c rest)

end Lexer

/-! ### The tokens of a text -/

section Text

variable {text : String} {tokens : List Lexed} {line : Int}
  (finishes : (Lexer.ofSource (Source.ofText Source.standardChunkSize text)).Finishes tokens line)

include finishes

theorem reads_text :
    ∃ last, (Lexer.facing text.toList "" 1).Reads tokens last ∧
      last.next = (.ok .endOfInput, .facing [] "" line) := by
  rw [Lexer.ofSource_ofText] at finishes
  exact Lexer.Finishes.of_next_eq (Lexer.next_facing_blank text.toList "" "" 1) finishes

/-- Every token of a text is on the line of its first character. -/
theorem token_begins
    {before after : List Lexed} {token : Lexed}
    (split : tokens ++ [⟨.endOfInput, "", line⟩] = before ++ token :: after) :
    ∃ front, BeginsAfter text.toList before token front ∧
      token.line = 1 + (front.countP isLineBreak : Int) := by
  obtain ⟨last, reads, ends⟩ := reads_text finishes
  rcases List.eq_nil_or_concat after with rfl | ⟨between, final, rfl⟩
  · obtain ⟨rfl, same⟩ := List.append_inj' split rfl
    cases same
    obtain ⟨ahead, _, _, front, start, rest, rfl, skipped, whole, leads, counted⟩ := reads.stands
    rw [Lexer.skip_of_ending ends] at skipped
    cases skipped
    rw [List.append_nil] at whole
    exact ⟨front, .ending whole leads rfl, counted⟩
  · rw [List.concat_eq_append, ← List.cons_append, ← List.append_assoc] at split
    obtain ⟨rfl, _⟩ := List.append_inj' split rfl
    obtain ⟨middle, earlier, others⟩ := reads.split
    obtain ⟨ahead, _, halt, front, start, rest, rfl, skipped, whole, leads, counted⟩ := earlier.stands
    cases others with
    | more read inside _ =>
        obtain ⟨reached, c, remaining, again, rfl, rfl⟩ := Lexer.next_facing_cases read inside
        rw [skipped] at again
        cases again
        have stops := skip_stops ⟨false, halt⟩ ahead
        rw [skipped] at stops
        obtain ⟨noBlank, noComment⟩ := stops c rfl
        refine ⟨front, .word whole leads ?_, counted⟩
        simp only [Lexer.lexed, Lexer.facing, String.toList_ofList]
        exact spell_longest noBlank noComment remaining

theorem lines_ascend :
    (tokens.map Lexed.line ++ [line]).Pairwise (· ≤ ·) := by
  obtain ⟨last, reads, ends⟩ := reads_text finishes
  have ascends := (List.pairwise_cons.mp reads.ascend).2
  obtain ⟨within, _, below⟩ := List.pairwise_append.mp ascends
  obtain ⟨ahead, final, reached, _, _, _, rfl, _, _, _, _⟩ := reads.stands
  have counted := skip_lines ⟨false, reached⟩ ahead
  rw [Lexer.skip_of_ending ends] at counted
  refine List.pairwise_append.mpr ⟨within, List.pairwise_singleton _ _, ?_⟩
  intro other member ending isEnding
  cases List.mem_singleton.mp isEnding
  have bound : other ≤ reached := below other member reached (List.mem_singleton_self _)
  simp only [List.countP_nil] at counted
  omega

end Text

/-- The line of every token of a text, and that of its end, is counted from the carriage returns and
line feeds before it: each of them begins a line, and no other character does. -/
theorem line_counts_breaks (text : String) :
    (Lexer.ofSource (Source.ofText Source.standardChunkSize text)).listing.failure = none ∧
    ∀ before token after,
      (Lexer.ofSource (Source.ofText Source.standardChunkSize text)).listing.tokens =
        before ++ token :: after →
      ∃ front, BeginsAfter text.toList before token front ∧
        (token.kind = .endOfInput → front = text.toList) ∧
        (token.kind ≠ .endOfInput → front ++ token.lexeme.toList <+: text.toList) ∧
        token.line = 1 + ((front.count '\r' + front.count '\n' : Nat) : Int) := by
  obtain ⟨tokens, line, finishes⟩ := Lexer.exists_finishes_ofText text
  refine ⟨finishes.failure, ?_⟩
  intro before token after split
  rw [finishes.listing] at split
  obtain ⟨front, begins, counted⟩ := token_begins finishes split
  rw [countP_isLineBreak] at counted
  exact ⟨front, begins, begins.whole, begins.spelled, counted⟩

/-- A comment that ends with a return and a feed, and a separator of lines that is no line break. -/
def separated : String := "#\r\n\u2028x"

theorem separated_counts_breaks :
    ∃ front, BeginsAfter separated.toList [] ⟨.identifier, "x", 3⟩ front ∧
      front ++ ['x'] <+: separated.toList ∧
      (3 : Int) = 1 + ((front.count '\r' + front.count '\n' : Nat) : Int) := by
  have name : (Lexer.facing (' ' :: separated.toList) "" 1).next =
      (.ok .identifier, .facing [] "x" 3) := rfl
  have ending : (Lexer.facing [] "x" 3).next = (.ok .endOfInput, .facing [] "" 3) := rfl
  have listed :
      (Lexer.ofSource (Source.ofText Source.standardChunkSize separated)).listing.tokens =
        [] ++ ⟨.identifier, "x", 3⟩ :: [⟨.endOfInput, "", 3⟩] := by
    rw [Lexer.ofSource_ofText,
      Lexer.listing_of_reads (.more name (by decide) (.none _)) ending]
    rfl
  obtain ⟨front, begins, _, spelled, counted⟩ := (line_counts_breaks separated).2 _ _ _ listed
  exact ⟨front, begins, spelled (by decide), counted⟩

end ExprWasm.Token
