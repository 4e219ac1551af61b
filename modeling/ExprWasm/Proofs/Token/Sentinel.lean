import ExprWasm.Proofs.Source.Delivered
import ExprWasm.Proofs.Token.Reads
import ExprWasm.Proofs.Token.Stepwise
import ExprWasm.Proofs.Token.Supply

/-! Lexers at a sentinel, and in front of one.

A sentinel ends every run over characters, whether it is the end of the input or a lack of data, and
the lexer that has come to one stays there. So two lexers in front of the same characters up to a
sentinel find the same tokens, and what follows the sentinel does not matter. -/

set_option autoImplicit false

namespace ExprWasm.Token

open Source (Reading Delivery Reader items)

/-! ### At a sentinel -/

namespace Lexer

def after (lexer : Lexer) : (calls : Nat) → Lexer
  | 0 => lexer
  | calls + 1 => (lexer.after calls).next.2

theorem next_sentinel {lexer : Lexer} (atSentinel : lexer.lookahead.isSentinel = true) :
    lexer.next = (.ok .endOfInput, { lexer with lexeme := "" }) :=
  (scan_eq_next lexer).symm.trans (scan_sentinel atSentinel)

/-- Every call at a sentinel finds the end of the input and leaves all but the lexeme as it is. -/
theorem after_next_sentinel
    {lexer : Lexer} (atSentinel : lexer.lookahead.isSentinel = true) (calls : Nat) :
    (lexer.after calls).next = (.ok .endOfInput, { lexer with lexeme := "" }) := by
  induction calls with
  | zero => exact next_sentinel atSentinel
  | succ calls inductionHypothesis =>
      rw [after, inductionHypothesis]
      exact @next_sentinel { lexer with lexeme := "" } atSentinel

/-- The end of the input is found at a sentinel only. -/
theorem atSentinel_of_next
    {lexer last : Lexer} (found : lexer.next = (.ok .endOfInput, last)) :
    last.lookahead.isSentinel = true ∧ last.lexeme = "" := by
  cases atItem : lexer.lookahead with
  | endOfInput | noData =>
      rw [next_sentinel (by rw [atItem]; rfl)] at found
      cases found
      exact ⟨by rw [atItem]; rfl, rfl⟩
  | item current =>
      obtain ⟨text, stop, split, ends⟩ := exists_plain_append lexer.reader.ahead
      rw [next_text ends atItem split] at found
      cases skipped : skip ⟨false, lexer.line⟩ (current :: text) with
      | mk line rest =>
          rw [skipped] at found
          cases rest with
          | cons c rest => exact absurd (finish_eq_ok found).2.1.symm (spell_kind_ne_endOfInput c rest)
          | nil =>
              have unlike := Halt.moved_ne_item ends lexer.reader.lastFailure (text.getLastD current)
              obtain ⟨unfailed, _, _⟩ := finish_eq_ok found
              simp only at found
              generalize Halt.moved _ _ _ = halt at found unlike unfailed
              obtain ⟨lookahead, rest, failure⟩ := halt
              cases unfailed
              cases found
              cases lookahead with
              | item c => exact absurd rfl (unlike c rest)
              | endOfInput => exact ⟨rfl, rfl⟩
              | noData => exact ⟨rfl, rfl⟩

theorem Supplies.atSentinel
    {failure : Option Failure} {last lexer : Lexer} {kind : Kind} {tokens : List Lexed}
    (supplies : Supplies failure last kind lexer tokens) (complete : failure = none)
    (inside : kind ≠ .endOfInput) : last.lookahead.isSentinel = true ∧ last.lexeme = "" := by
  induction supplies with
  | ended => exact absurd rfl inside
  | fails _ _ incomplete =>
      rw [complete] at incomplete
      cases incomplete
  | @more kind next lexer after rest _ read later inductionHypothesis =>
      by_cases isEnding : next = .endOfInput
      · subst isEnding
        cases later with
        | ended => exact atSentinel_of_next read
        | fails inside => exact absurd rfl inside
        | more inside => exact absurd rfl inside
      · exact inductionHypothesis isEnding

end Lexer

/-! ### In front of a sentinel -/

inductive Closes (lastFailure : Option Failure) : List Delivery → Prop where
  | finished (last : lastFailure = none) : Closes lastFailure []
  | sentinel {reading : Reading Char} (isSentinel : reading.isSentinel = true)
      (rest : List Delivery) : Closes lastFailure (.ok reading :: rest)

section Closing

variable {lastFailure : Option Failure} {stop : List Delivery}

theorem Closes.endsText (closes : Closes lastFailure stop) : EndsText stop := by
  intro c rest same
  subst same
  cases closes with
  | sentinel isSentinel => cases isSentinel

theorem Closes.moved (closes : Closes lastFailure stop) (current : Char) :
    ∃ reading rest, reading.isSentinel = true ∧
      Halt.moved lastFailure current stop = ⟨reading, rest, none⟩ := by
  cases closes with
  | finished last =>
      subst last
      exact ⟨.endOfInput, [], rfl, rfl⟩
  | sentinel isSentinel rest => exact ⟨_, rest, isSentinel, rfl⟩

end Closing

/-- What a reader delivers before its first sentinel is a text. -/
theorem closes_of_take
    {reader : Reader} {text : List Char} {reading : Reading Char}
    (taken : reader.take (text.length + 1) = items text ++ [.ok reading])
    (isSentinel : reading.isSentinel = true) :
    ∃ stop, reader.ahead = plain text ++ stop ∧ Closes reader.lastFailure stop := by
  induction text generalizing reader with
  | nil =>
      obtain ⟨ahead, lastFailure⟩ := reader
      refine ⟨ahead, rfl, ?_⟩
      cases ahead with
      | nil =>
          cases lastFailure with
          | none => exact .finished rfl
          | some failure => cases taken
      | cons delivery rest =>
          cases taken
          exact .sentinel isSentinel rest
  | cons c text inductionHypothesis =>
      obtain ⟨ahead, lastFailure⟩ := reader
      obtain ⟨first, others⟩ := List.cons.inj taken
      cases ahead with
      | nil =>
          cases lastFailure with
          | none => cases first
          | some failure => cases first
      | cons delivery rest =>
          cases first
          obtain ⟨stop, split, closes⟩ := inductionHypothesis others
          exact ⟨stop, congrArg _ split, closes⟩

namespace Lexer

inductive Faces (lexer : Lexer) : List Char → Prop where
  | ended (isSentinel : lexer.lookahead.isSentinel = true) : Faces lexer []
  | character {c : Char} {text : List Char} {stop : List Delivery}
      (atItem : lexer.lookahead = .item c) (split : lexer.reader.ahead = plain text ++ stop)
      (closes : Closes lexer.reader.lastFailure stop) : Faces lexer (c :: text)

theorem finish_within
    (lexer : Lexer) {stop : List Delivery} (closes : Closes lexer.reader.lastFailure stop)
    (kind : Kind) (taken : List Char) (last : Char) (text : List Char) :
    ∃ after, lexer.finish kind taken (.within lexer.reader.lastFailure stop last text) =
        (.ok kind, after) ∧
      after.Faces text ∧ after.lexeme = String.ofList taken.reverse ∧ after.line = lexer.line := by
  cases text with
  | cons c text => exact ⟨_, rfl, .character rfl rfl closes, rfl, rfl⟩
  | nil =>
      obtain ⟨reading, rest, isSentinel, moved⟩ := closes.moved last
      rw [Halt.within, moved]
      exact ⟨_, rfl, .ended isSentinel, rfl, rfl⟩

/-- A call finds what it would find if nothing but the text were ahead. -/
theorem next_faces {lexer : Lexer} {text : List Char} (faces : lexer.Faces text) (lexeme : String) :
    ∃ kind after rest, lexer.next = (.ok kind, after) ∧ after.Faces rest ∧
      (facing text lexeme lexer.line).next = (.ok kind, facing rest after.lexeme after.line) := by
  cases faces with
  | ended isSentinel => exact ⟨_, _, [], next_sentinel isSentinel, .ended isSentinel, rfl⟩
  | @character c text stop atItem split closes =>
      rw [next_text closes.endsText atItem split, next_facing]
      cases skip ⟨false, lexer.line⟩ (c :: text) with
      | mk line rest =>
          cases rest with
          | nil =>
              obtain ⟨after, finished, faces, lexeme, sameLine⟩ :=
                finish_within { lexer with line := line } closes .endOfInput [] (text.getLastD c) []
              refine ⟨_, after, [], finished, faces, ?_⟩
              rw [lexeme, sameLine]
              rfl
          | cons first rest =>
              obtain ⟨after, finished, faces, lexeme, sameLine⟩ :=
                finish_within { lexer with line := line } closes (spell first rest).kind
                  (spell first rest).characters.reverse ((spell first rest).characters.getLastD ' ')
                  (spell first rest).rest
              refine ⟨_, after, _, finished, faces, ?_⟩
              rw [lexeme, sameLine, List.reverse_reverse]

/-! ### All tokens -/

theorem Reads.faces
    {lexer last : Lexer} {text : List Char} {lexeme : String} {tokens : List Lexed}
    (faces : lexer.Faces text) (reads : (facing text lexeme lexer.line).Reads tokens last) :
    ∃ reached rest final, lexer.Reads tokens reached ∧ reached.Faces rest ∧
      last = facing rest final reached.line := by
  generalize begins : facing text lexeme lexer.line = other at reads
  induction reads generalizing lexer text lexeme with
  | none _ => exact ⟨lexer, text, lexeme, .none lexer, faces, begins.symm⟩
  | @more _ after last kind tokens read inside _ inductionHypothesis =>
      subst begins
      obtain ⟨found, next, rest, readToo, facesNext, same⟩ := next_faces faces lexeme
      rw [read] at same
      cases same
      obtain ⟨reached, beyond, final, reads, facesLast, ends⟩ := inductionHypothesis facesNext rfl
      have readsToo : lexer.Reads (next.lexed kind :: tokens) reached := .more readToo inside reads
      exact ⟨reached, beyond, final, readsToo, facesLast, ends⟩

/-- A lexer in front of a text up to a sentinel has the listing of the text. -/
theorem listing_faces
    {lexer : Lexer} {text : List Char} (faces : lexer.Faces text) (lexeme : String) :
    lexer.listing.tokens = (facing text lexeme lexer.line).listing.tokens ∧
      lexer.listing.failure = none := by
  obtain ⟨tokens, ending, last, reads, ends⟩ := exists_finishes text lexeme lexer.line
  obtain ⟨reached, rest, final, readsToo, facesLast, rfl⟩ := reads.faces faces
  obtain ⟨kind, after, beyond, endsToo, _, same⟩ := next_faces facesLast final
  rw [ends] at same
  obtain ⟨isEnding, sameAfter⟩ := Prod.mk.inj same
  cases isEnding
  rw [listing_of_reads readsToo endsToo, listing_of_reads reads ends, sameAfter]
  exact ⟨rfl, rfl⟩

end Lexer

end ExprWasm.Token
