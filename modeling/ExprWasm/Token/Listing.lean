import ExprWasm.Token.Lexer

/-! The tokens of a source up to its end, or up to the first read that fails.

Main statement: a token that is not the end of the input uses up a reading
(`Lexer.remaining_lt_of_next`), so the listing of every source is finite. -/

set_option autoImplicit false

namespace ExprWasm.Token

open Source (Reading Delivery)
open Number (Decimal)

namespace Halt

def remaining (halt : Halt) : Nat :=
  halt.ahead.length + if halt.lookahead.isSentinel then 0 else 1

end Halt

theorem takeWhile_remaining_le
    (accepts : Char → Bool) (lastFailure : Option Failure)
    (taken : List Char) (current : Char) (ahead : List Delivery)
    (unfailed : (takeWhile accepts lastFailure taken current ahead).2.failure = none) :
    (takeWhile accepts lastFailure taken current ahead).2.remaining ≤ ahead.length := by
  fun_induction takeWhile accepts lastFailure taken current ahead with
  | case1 taken current =>
      cases lastFailure with
      | none => simp [Halt.atEnd, Halt.remaining, Reading.isSentinel]
      | some failure => simp [Halt.atEnd] at unfailed
  | case2 taken current failure rest => simp at unfailed
  | case3 taken current next rest accepted inductionHypothesis =>
      have bound := inductionHypothesis unfailed
      simp only [List.length_cons]
      omega
  | case4 taken current next rest refused => simp [Halt.remaining, Reading.isSentinel]
  | case5 taken current sentinel rest notItem =>
      cases sentinel with
      | item value => exact absurd rfl (notItem value)
      | endOfInput => simp [Halt.remaining, Reading.isSentinel]
      | noData => simp [Halt.remaining, Reading.isSentinel]

theorem skipLayout_remaining_le
    (lastFailure : Option Failure) (layout : Layout) (current : Char) (ahead : List Delivery)
    (unfailed : (skipLayout lastFailure layout current ahead).2.failure = none) :
    (skipLayout lastFailure layout current ahead).2.remaining ≤ ahead.length + 1 := by
  fun_induction skipLayout lastFailure layout current ahead with
  | case1 layout current ahead begins => simp [Halt.remaining, Reading.isSentinel]
  | case2 layout current passed passes =>
      cases lastFailure with
      | none => simp [Halt.atEnd, Halt.remaining, Reading.isSentinel]
      | some failure => simp [Halt.atEnd] at unfailed
  | case3 layout current passed passes failure rest => simp at unfailed
  | case4 layout current passed passes next rest inductionHypothesis =>
      have bound := inductionHypothesis unfailed
      simp only [List.length_cons]
      omega
  | case5 layout current passed passes sentinel rest notItem =>
      cases sentinel with
      | item value => exact absurd rfl (notItem value)
      | endOfInput => simp [Halt.remaining, Reading.isSentinel]; omega
      | noData => simp [Halt.remaining, Reading.isSentinel]; omega

namespace Lexer

theorem remaining_settle (lexer : Lexer) (taken : List Char) (halt : Halt) :
    (lexer.settle taken halt).remaining = halt.remaining := rfl

theorem finish_eq_ok
    {lexer after : Lexer} {kind found : Kind} {taken : List Char} {halt : Halt}
    (finished : lexer.finish kind taken halt = (.ok found, after)) :
    halt.failure = none ∧ found = kind ∧ after.remaining = halt.remaining := by
  unfold finish at finished
  split at finished
  · simp at finished
  · rename_i unfailed
    simp only [Prod.mk.injEq, Except.ok.injEq] at finished
    exact ⟨unfailed, finished.1.symm, by rw [← finished.2]; exact remaining_settle _ _ _⟩

/-- A reading is used up by a run whose token was finished. -/
private theorem remaining_le_of_finish
    {lexer after : Lexer} {kind found : Kind} {accepts : Char → Bool}
    {lastFailure : Option Failure} {taken : List Char} {current : Char} {ahead : List Delivery}
    (finished :
      lexer.finish kind (takeWhile accepts lastFailure taken current ahead).1
        (takeWhile accepts lastFailure taken current ahead).2 = (.ok found, after)) :
    after.remaining ≤ ahead.length := by
  obtain ⟨unfailed, _, same⟩ := finish_eq_ok finished
  rw [same]
  exact takeWhile_remaining_le _ _ _ _ _ unfailed

theorem remaining_le_of_readToken
    {lexer after : Lexer} {current : Char} {ahead : List Delivery} {kind : Kind}
    (read : lexer.readToken current ahead = (.ok kind, after)) :
    after.remaining ≤ ahead.length := by
  unfold readToken at read
  split at read
  · exact remaining_le_of_finish read
  · split at read
    · unfold readNumber at read
      split at read
      rename_i whole halt run
      split at read
      · rename_i rest
        have firstRun :
            (takeWhile Decimal.isDigit lexer.reader.lastFailure [] current ahead).2.remaining ≤
              ahead.length :=
          takeWhile_remaining_le _ _ _ _ _ (by rw [run])
        rw [run] at firstRun
        have secondRun := remaining_le_of_finish read
        simp only [Halt.remaining] at firstRun
        omega
      · obtain ⟨unfailed, _, same⟩ := finish_eq_ok read
        have firstRun :
            (takeWhile Decimal.isDigit lexer.reader.lastFailure [] current ahead).2.remaining ≤
              ahead.length :=
          takeWhile_remaining_le _ _ _ _ _ (by rw [run]; exact unfailed)
        rw [run] at firstRun
        rw [same]
        exact firstRun
    · have pairBound :
          ∀ {second : Char} {pair single : Kind},
            lexer.readPair current ahead second pair single = (.ok kind, after) →
              after.remaining ≤ ahead.length := by
        intro second pair single read
        unfold readPair at read
        split at read
        rename_i taken halt run
        split at read
        · rename_i next rest
          have firstRun :
              (takeWhile (fun _ => false) lexer.reader.lastFailure [] current ahead).2.remaining ≤
                ahead.length :=
            takeWhile_remaining_le _ _ _ _ _ (by rw [run])
          rw [run] at firstRun
          split at read
          · have secondRun := remaining_le_of_finish read
            simp only [Halt.remaining] at firstRun
            omega
          · obtain ⟨_, _, same⟩ := finish_eq_ok read
            rw [same]
            exact firstRun
        · obtain ⟨unfailed, _, same⟩ := finish_eq_ok read
          have firstRun :
              (takeWhile (fun _ => false) lexer.reader.lastFailure [] current ahead).2.remaining ≤
                ahead.length :=
            takeWhile_remaining_le _ _ _ _ _ (by rw [run]; exact unfailed)
          rw [run] at firstRun
          rw [same]
          exact firstRun
      unfold readSymbol at read
      split at read
      · exact pairBound read
      · split at read
        · exact pairBound read
        · exact remaining_le_of_finish read

/-- Every token before the end of the input uses up a reading. -/
theorem remaining_lt_of_next
    {lexer after : Lexer} {kind : Kind}
    (read : lexer.next = (.ok kind, after)) (found : kind ≠ .endOfInput) :
    after.remaining < lexer.remaining := by
  unfold next at read
  split at read
  · rename_i current atItem
    have skipBound :=
      skipLayout_remaining_le lexer.reader.lastFailure ⟨false, lexer.line⟩ current
        lexer.reader.ahead
    have size : lexer.remaining = lexer.reader.ahead.length + 1 := by
      simp [remaining, atItem, Reading.isSentinel]
    split at read
    rename_i line halt skipped
    rw [skipped] at skipBound
    split at read
    · rename_i start ahead
      have tokenBound := remaining_le_of_readToken read
      have startBound := skipBound rfl
      simp only [Halt.remaining, Reading.isSentinel] at startBound
      have startSize : ahead.length + 1 ≤ lexer.reader.ahead.length + 1 := startBound
      omega
    · exact absurd (finish_eq_ok read).2.1 found
  · simp only [Prod.mk.injEq, Except.ok.injEq] at read
    exact absurd read.1.symm found

end Lexer

/-- The tokens found, the failure that ended them if one did, and the lexer after them. Without a
failure the last token is the end of the input, and no other is. -/
structure Listing where
  tokens : List Lexed
  failure : Option Failure
  lexer : Lexer

namespace Lexer

/-- The listing of what a lexer has still to read, after the tokens in `found`, the last one
first. -/
def listingAfter (found : List Lexed) (lexer : Lexer) : Listing :=
  match _read : lexer.next with
  | (.error failure, after) => ⟨found.reverse, some failure, after⟩
  | (.ok kind, after) =>
      if _last : kind = .endOfInput then ⟨(after.lexed kind :: found).reverse, none, after⟩
      else listingAfter (after.lexed kind :: found) after
termination_by lexer.remaining
decreasing_by exact remaining_lt_of_next _read _last

def listing (lexer : Lexer) : Listing :=
  lexer.listingAfter []

end Lexer

end ExprWasm.Token
