import ExprWasm.Proofs.Token.PlainText

/-! Tokens character by character.

A lexer that takes one reading at a time asks its lookahead for a character each time it adds to the
lexeme, which is a fault at a sentinel. Main statement: its tokens, its failures and the states it
passes to the next call are those of `Lexer.next`, so that it never asks at a sentinel. -/

set_option autoImplicit false

namespace ExprWasm.Token

open Source (Reading Delivery Reader isNameStart isNamePart isBlank isLineBreak)
open Number (Decimal)

/-- The outcome of a step of a lexer, and the lexer after it. -/
abbrev Step (α : Type) := Except Failure α × Lexer

namespace Step

def andThen {α β : Type} (step : Step α) (continuation : α → Lexer → Step β) : Step β :=
  match step with
  | (.ok value, lexer) => continuation value lexer
  | (.error failure, lexer) => (.error failure, lexer)

theorem andThen_assoc
    {α β γ : Type} (step : Step α) (first : α → Lexer → Step β) (second : β → Lexer → Step γ) :
    (step.andThen first).andThen second =
      step.andThen fun value lexer => (first value lexer).andThen second := by
  obtain ⟨outcome, lexer⟩ := step
  cases outcome with
  | ok value => rfl
  | error failure => rfl

end Step

namespace Lexer

def looksAt (lexer : Lexer) (accepts : Char → Bool) : Bool :=
  match lexer.lookahead with
  | .item current => accepts current
  | _ => false

def consume (lexer : Lexer) : Step Unit :=
  match lexer.lookahead.character with
  | .ok current => { lexer with lexeme := lexer.lexeme.push current }.advance
  | .error failure => (.error failure, lexer)

/-! ### Each step uses up a reading -/

theorem remaining_le_of_advance
    {lexer after : Lexer} (moved : lexer.advance = (.ok (), after)) :
    after.remaining ≤ lexer.reader.ahead.length := by
  unfold advance Reader.next at moved
  cases ahead : lexer.reader.ahead with
  | nil =>
      cases last : lexer.reader.lastFailure with
      | none =>
          simp only [ahead, last, Prod.mk.injEq, true_and] at moved
          subst moved
          simp [remaining, Reading.isSentinel, ahead]
      | some failure => simp [ahead, last] at moved
  | cons delivery rest =>
      cases delivery with
      | error failure => simp [ahead] at moved
      | ok reading =>
          simp only [ahead, Prod.mk.injEq, true_and] at moved
          subst moved
          simp only [remaining, List.length_cons]
          split <;> omega

theorem remaining_lt_of_advance
    {lexer after : Lexer} (inside : lexer.lookahead.isSentinel = false)
    (moved : lexer.advance = (.ok (), after)) : after.remaining < lexer.remaining := by
  have bound := remaining_le_of_advance moved
  unfold remaining at bound ⊢
  rw [inside]
  simp only [Bool.false_eq_true, if_false]
  omega

theorem remaining_lt_of_consume
    {lexer after : Lexer} (consumed : lexer.consume = (.ok (), after)) :
    after.remaining < lexer.remaining := by
  obtain ⟨reader, lexeme, lookahead, line⟩ := lexer
  cases lookahead with
  | item current =>
      exact @remaining_lt_of_advance ⟨reader, lexeme.push current, .item current, line⟩ _ rfl consumed
  | endOfInput => cases consumed
  | noData => cases consumed

/-! ### The steps of a token -/

def consumeWhile (accepts : Char → Bool) (lexer : Lexer) : Step Unit :=
  if lexer.looksAt accepts then
    match _consumed : lexer.consume with
    | (.ok (), after) => consumeWhile accepts after
    | (.error failure, after) => (.error failure, after)
  else (.ok (), lexer)
termination_by lexer.remaining
decreasing_by exact remaining_lt_of_consume _consumed

def consumeRun (accepts : Char → Bool) (lexer : Lexer) : Step Unit :=
  lexer.consume.andThen fun _ after => after.consumeWhile accepts

def scanWord (lexer : Lexer) : Step Kind :=
  (lexer.consumeRun isNamePart).andThen fun _ after => (.ok (.ofWord after.lexeme), after)

/-- A number. The point takes further digits with it, if there are any. -/
def scanNumber (lexer : Lexer) : Step Kind :=
  (lexer.consumeRun Decimal.isDigit).andThen fun _ after =>
    if after.looksAt (· = '.') then
      (after.consumeRun Decimal.isDigit).andThen fun _ last => (.ok .number, last)
    else (.ok .number, after)

def scanSecond (lexer : Lexer) (second : Char) (pair single : Kind) : Step Kind :=
  if lexer.looksAt (· = second) then lexer.consume.andThen fun _ after => (.ok pair, after)
  else (.ok single, lexer)

/-- A symbol. The lookahead is asked for its character once more, to tell which symbol it is. -/
def scanSymbol (lexer : Lexer) : Step Kind :=
  match lexer.lookahead.character with
  | .error failure => (.error failure, lexer)
  | .ok current =>
      lexer.consume.andThen fun _ after =>
        if current = '<' then after.scanSecond '>' .notEqual .less
        else if current = '=' then after.scanSecond '=' .equal .noToken
        else (.ok ((Kind.ofSymbol? current).getD .invalid), after)

def countLine (lexer : Lexer) : Lexer :=
  { lexer with line := if lexer.looksAt isLineBreak then lexer.line + 1 else lexer.line }

theorem isSentinel_of_looksAt
    {lexer : Lexer} {accepts : Char → Bool} (looks : lexer.looksAt accepts = true) :
    lexer.lookahead.isSentinel = false := by
  obtain ⟨reader, lexeme, lookahead, line⟩ := lexer
  cases lookahead with
  | item current => rfl
  | endOfInput => cases looks
  | noData => cases looks

def skipBlanks (lexer : Lexer) : Step Unit :=
  if _blank : lexer.looksAt isBlank then
    match _moved : lexer.countLine.advance with
    | (.ok (), after) => skipBlanks after
    | (.error failure, after) => (.error failure, after)
  else (.ok (), lexer)
termination_by lexer.remaining
decreasing_by
  exact @remaining_lt_of_advance lexer.countLine _ (isSentinel_of_looksAt _blank) _moved

def skipComment (lexer : Lexer) : Step Unit :=
  match _moved : lexer.advance with
  | (.error failure, after) => (.error failure, after)
  | (.ok (), after) =>
      if _ended : after.lookahead.isSentinel || after.looksAt isLineBreak then (.ok (), after)
      else skipComment after
termination_by lexer.reader.ahead.length
decreasing_by
  have bound := remaining_le_of_advance _moved
  have inside : after.lookahead.isSentinel = false := by
    rw [Bool.or_eq_true, not_or] at _ended
    exact Bool.eq_false_iff.mpr _ended.1
  rw [remaining, inside] at bound
  exact bound

theorem remaining_le_of_skipBlanks
    {lexer after : Lexer} (skipped : lexer.skipBlanks = (.ok (), after)) :
    after.remaining ≤ lexer.remaining := by
  fun_induction skipBlanks lexer with
  | case1 lexer blank next moved inductionHypothesis =>
      have bound := inductionHypothesis skipped
      have used := @remaining_lt_of_advance lexer.countLine _ (isSentinel_of_looksAt blank) moved
      exact Nat.le_trans bound (Nat.le_of_lt used)
  | case2 lexer blank failure next moved => cases skipped
  | case3 lexer blank =>
      cases skipped
      exact Nat.le_refl _

theorem remaining_lt_of_skipComment
    {lexer after : Lexer} (inside : lexer.lookahead.isSentinel = false)
    (skipped : lexer.skipComment = (.ok (), after)) : after.remaining < lexer.remaining := by
  fun_induction skipComment lexer with
  | case1 lexer failure next moved => cases skipped
  | case2 lexer next moved ended =>
      cases skipped
      exact remaining_lt_of_advance inside moved
  | case3 lexer next moved goesOn inductionHypothesis =>
      rw [Bool.or_eq_true, not_or] at goesOn
      have bound := inductionHypothesis (Bool.eq_false_iff.mpr goesOn.1) skipped
      exact Nat.lt_trans bound (remaining_lt_of_advance inside moved)

def scan (lexer : Lexer) : Step Kind :=
  match _skipped : ({ lexer with lexeme := "" } : Lexer).skipBlanks with
  | (.error failure, after) => (.error failure, after)
  | (.ok (), after) =>
      if after.looksAt isNameStart then after.scanWord
      else if after.looksAt Decimal.isDigit then after.scanNumber
      else if _comment : after.looksAt (· = '#') then
        match _passed : after.skipComment with
        | (.error failure, last) => (.error failure, last)
        | (.ok (), last) =>
            if last.lookahead.isSentinel then (.ok .endOfInput, last) else scan last
      else if after.lookahead.isSentinel then (.ok .endOfInput, after)
      else after.scanSymbol
termination_by lexer.remaining
decreasing_by
  have blanks := remaining_le_of_skipBlanks _skipped
  have comment := remaining_lt_of_skipComment (isSentinel_of_looksAt _comment) _passed
  exact Nat.lt_of_lt_of_le comment blanks

/-! ### Runs of characters -/

def stopped (lexer : Lexer) (taken : List Char) (halt : Halt) : Step Unit :=
  match halt.failure with
  | some failure => (.error failure, lexer.settle taken halt)
  | none => (.ok (), lexer.settle taken halt)

theorem finish_eq (lexer : Lexer) (kind : Kind) (taken : List Char) (halt : Halt) :
    lexer.finish kind taken halt =
      (lexer.stopped taken halt).andThen fun _ after => (.ok kind, after) := by
  unfold finish stopped
  cases halt.failure with
  | none => rfl
  | some failure => rfl

def poised (lexer : Lexer) (taken : List Char) (current : Char) (ahead : List Delivery) : Lexer :=
  lexer.settle taken ⟨.item current, ahead, none⟩

section Poised

variable (lexer : Lexer) (taken : List Char) (current : Char) (ahead : List Delivery)

theorem advance_poised :
    (lexer.poised taken current ahead).advance =
      lexer.stopped taken (Halt.moved lexer.reader.lastFailure current ahead) := by
  obtain ⟨⟨former, lastFailure⟩, lexeme, lookahead, line⟩ := lexer
  cases ahead with
  | nil =>
      cases lastFailure with
      | none => rfl
      | some failure => rfl
  | cons delivery rest =>
      cases delivery with
      | error failure => rfl
      | ok reading => rfl

theorem consume_poised :
    (lexer.poised taken current ahead).consume =
      lexer.stopped (current :: taken) (Halt.moved lexer.reader.lastFailure current ahead) := by
  rw [← advance_poised]
  unfold consume poised settle
  simp only [Reading.character, List.reverse_cons]
  rw [String.ofList_append]
  rfl

theorem consumeWhile_eq (accepts : Char → Bool) (lexer : Lexer) :
    lexer.consumeWhile accepts =
      if lexer.looksAt accepts then lexer.consumeRun accepts else (.ok (), lexer) := by
  rw [consumeWhile, consumeRun]
  split
  · generalize lexer.consume = step
    obtain ⟨outcome, after⟩ := step
    cases outcome with
    | ok value => rfl
    | error failure => rfl
  · rfl

theorem consumeRun_poised (accepts : Char → Bool) :
    (lexer.poised taken current ahead).consumeRun accepts =
      lexer.stopped (takeWhile accepts lexer.reader.lastFailure taken current ahead).1
        (takeWhile accepts lexer.reader.lastFailure taken current ahead).2 := by
  rw [consumeRun, consume_poised]
  induction ahead generalizing taken current with
  | nil =>
      rw [takeWhile, Halt.moved]
      unfold stopped Halt.atEnd
      cases lexer.reader.lastFailure with
      | none =>
          change consumeWhile accepts _ = _
          rw [consumeWhile_eq]
          rfl
      | some failure => rfl
  | cons delivery rest inductionHypothesis =>
      cases delivery with
      | error failure => rfl
      | ok reading =>
          change consumeWhile accepts _ = _
          rw [consumeWhile_eq]
          cases reading with
          | item next =>
              rw [takeWhile]
              change (if accepts next then
                (lexer.poised (current :: taken) next rest).consumeRun accepts else _) = _
              rw [consumeRun, consume_poised, inductionHypothesis]
              split
              · rfl
              · rfl
          | endOfInput => rfl
          | noData => rfl

/-! ### Tokens -/

theorem scanWord_poised :
    (lexer.poised [] current ahead).scanWord = lexer.readWord current ahead := by
  rw [scanWord, consumeRun_poised, readWord]
  generalize takeWhile _ _ _ _ _ = run
  obtain ⟨taken, halt⟩ := run
  simp only [finish_eq, stopped]
  cases halt.failure with
  | none => rfl
  | some failure => rfl

theorem scanNumber_poised :
    (lexer.poised [] current ahead).scanNumber = lexer.readNumber current ahead := by
  rw [scanNumber, consumeRun_poised, readNumber]
  generalize takeWhile _ _ _ _ _ = run
  obtain ⟨taken, lookahead, rest, failure⟩ := run
  simp only
  split
  · rename_i same
    cases same
    change ((lexer.poised taken '.' rest).consumeRun Decimal.isDigit).andThen _ = _
    rw [consumeRun_poised, finish_eq]
  · rename_i noPoint
    cases failure with
    | some failure => rfl
    | none =>
        cases lookahead with
        | item next =>
            have unlike : ¬ decide (next = '.') = true := by
              rw [decide_eq_true_eq]
              rintro rfl
              exact noPoint rest rfl
            change (if decide (next = '.') = true then _ else _) = _
            rw [if_neg unlike]
            rfl
        | endOfInput => rfl
        | noData => rfl

theorem scanSecond_poised (second : Char) (pair single : Kind) :
    ((lexer.poised [] current ahead).consume.andThen fun _ after =>
      after.scanSecond second pair single) = lexer.readPair current ahead second pair single := by
  rw [consume_poised, readPair, takeWhile_none]
  generalize Halt.moved _ _ _ = halt
  obtain ⟨lookahead, rest, failure⟩ := halt
  simp only
  split
  · rename_i next _ same
    cases same
    change (if decide (next = second) = true then
      ((lexer.poised [current] next rest).consume).andThen _ else _) = _
    simp only [decide_eq_true_eq]
    split
    · rw [consume_poised, takeWhile_none, finish_eq]
    · rfl
  · rename_i noItem
    cases failure with
    | some failure => rfl
    | none =>
        cases lookahead with
        | item next => exact absurd rfl (noItem next rest)
        | endOfInput => rfl
        | noData => rfl

theorem scanSymbol_poised :
    (lexer.poised [] current ahead).scanSymbol = lexer.readSymbol current ahead := by
  unfold scanSymbol readSymbol
  change ((lexer.poised [] current ahead).consume.andThen fun _ after => _) = _
  by_cases isLess : current = '<'
  · simp only [if_pos isLess]
    exact scanSecond_poised lexer current ahead '>' .notEqual .less
  · simp only [if_neg isLess]
    by_cases isEqual : current = '='
    · simp only [if_pos isEqual]
      exact scanSecond_poised lexer current ahead '=' .equal .noToken
    · simp only [if_neg isEqual]
      rw [consume_poised, takeWhile_none, finish_eq]

end Poised

/-! ### White space and comments -/

def scanComment (lexer : Lexer) : Step Kind :=
  lexer.skipComment.andThen fun _ after =>
    if after.lookahead.isSentinel then (.ok .endOfInput, after) else after.scan

theorem skipBlanks_eq (lexer : Lexer) :
    lexer.skipBlanks =
      if lexer.looksAt isBlank then
        Step.andThen lexer.countLine.advance fun _ after => after.skipBlanks
      else (.ok (), lexer) := by
  rw [skipBlanks]
  split
  · generalize lexer.countLine.advance = step
    obtain ⟨outcome, after⟩ := step
    cases outcome with
    | ok value => rfl
    | error failure => rfl
  · rfl

theorem skipComment_eq (lexer : Lexer) :
    lexer.skipComment =
      Step.andThen lexer.advance fun _ after =>
        if after.lookahead.isSentinel || after.looksAt isLineBreak then (.ok (), after)
        else after.skipComment := by
  rw [skipComment]
  generalize lexer.advance = step
  obtain ⟨outcome, after⟩ := step
  cases outcome with
  | ok value =>
      simp only [Step.andThen]
      split
      · rfl
      · rfl
  | error failure => rfl

theorem scan_eq (lexer : Lexer) :
    lexer.scan =
      ({ lexer with lexeme := "" } : Lexer).skipBlanks.andThen fun _ after =>
        if after.looksAt isNameStart then after.scanWord
        else if after.looksAt Decimal.isDigit then after.scanNumber
        else if after.looksAt (· = '#') then after.scanComment
        else if after.lookahead.isSentinel then (.ok .endOfInput, after)
        else after.scanSymbol := by
  rw [scan]
  generalize ({ lexer with lexeme := "" } : Lexer).skipBlanks = step
  obtain ⟨outcome, after⟩ := step
  cases outcome with
  | error failure => rfl
  | ok value =>
      simp only [Step.andThen, scanComment]
      generalize after.skipComment = passed
      obtain ⟨outcome, last⟩ := passed
      cases outcome with
      | error failure => rfl
      | ok value => rfl

theorem scan_sentinel
    {lexer : Lexer} (atSentinel : lexer.lookahead.isSentinel = true) :
    lexer.scan = (.ok .endOfInput, { lexer with lexeme := "" }) := by
  obtain ⟨reader, lexeme, lookahead, line⟩ := lexer
  rw [scan_eq, skipBlanks_eq]
  cases lookahead with
  | item current => cases atSentinel
  | endOfInput => rfl
  | noData => rfl

def proceed {α : Type} (go : Char → List Delivery → α) (stop : α) : Halt → α
  | ⟨.item current, ahead, none⟩ => go current ahead
  | _ => stop

/-- A lexer that goes on after a move goes on at a character, or the input has ended. -/
theorem stopped_andThen
    {go : Lexer → Step Kind}
    (atSentinel : ∀ after : Lexer, after.lookahead.isSentinel = true →
      go after = (.ok .endOfInput, { after with lexeme := "" }))
    (lexer : Lexer) (halt : Halt) :
    ((lexer.stopped [] halt).andThen fun _ after => go after) =
      proceed (fun next rest => go (lexer.poised [] next rest))
        (lexer.finish .endOfInput [] halt) halt := by
  obtain ⟨lookahead, rest, failure⟩ := halt
  cases failure with
  | some failure =>
      cases lookahead with
      | item next => rfl
      | endOfInput => rfl
      | noData => rfl
  | none =>
      cases lookahead with
      | item next => rfl
      | endOfInput => exact atSentinel _ rfl
      | noData => exact atSentinel _ rfl

section Layout

variable {lastFailure : Option Failure} {layout passed : Layout} {current : Char}

theorem skipLayout_stops (stops : layout.pass? current = none) (ahead : List Delivery) :
    skipLayout lastFailure layout current ahead =
      (layout.line, ⟨.item current, ahead, none⟩) := by
  rw [skipLayout, stops]

theorem skipLayout_passes (passes : layout.pass? current = some passed) (ahead : List Delivery) :
    skipLayout lastFailure layout current ahead =
      proceed (fun next rest => skipLayout lastFailure passed next rest)
        (passed.line, .moved lastFailure current ahead) (Halt.moved lastFailure current ahead) := by
  rw [skipLayout, passes]
  cases ahead with
  | nil =>
      cases lastFailure with
      | none => rfl
      | some failure => rfl
  | cons delivery rest =>
      cases delivery with
      | error failure => rfl
      | ok reading =>
          cases reading with
          | item next => rfl
          | endOfInput => rfl
          | noData => rfl

end Layout

def tokenAfter (lexer : Lexer) (place : Int × Halt) : Step Kind :=
  proceed (fun current ahead => ({ lexer with line := place.1 } : Lexer).readToken current ahead)
    (({ lexer with line := place.1 } : Lexer).finish .endOfInput [] place.2) place.2

theorem next_eq_tokenAfter
    {lexer : Lexer} {current : Char} (atItem : lexer.lookahead = .item current) :
    lexer.next =
      lexer.tokenAfter
        (skipLayout lexer.reader.lastFailure ⟨false, lexer.line⟩ current lexer.reader.ahead) := by
  unfold next
  rw [atItem]
  simp only
  generalize skipLayout _ _ _ _ = place
  obtain ⟨line, lookahead, ahead, failure⟩ := place
  cases failure with
  | some failure =>
      cases lookahead with
      | item next => rfl
      | endOfInput => rfl
      | noData => rfl
  | none =>
      cases lookahead with
      | item next => rfl
      | endOfInput => rfl
      | noData => rfl

section Scan

variable (lexer : Lexer) {current : Char}

theorem scan_start
    (noBlank : isBlank current = false) (noComment : current ≠ '#') (ahead : List Delivery) :
    (lexer.poised [] current ahead).scan = lexer.readToken current ahead := by
  have outside : ¬ decide (current = '#') = true := by simpa using noComment
  rw [scan_eq, skipBlanks_eq]
  change (Step.andThen (if isBlank current then _ else (.ok (), lexer.poised [] current ahead)) _) = _
  rw [noBlank]
  change (if isNameStart current then (lexer.poised [] current ahead).scanWord
    else if Decimal.isDigit current then (lexer.poised [] current ahead).scanNumber
    else if decide (current = '#') = true then _
    else (lexer.poised [] current ahead).scanSymbol) = _
  rw [if_neg outside, scanWord_poised, scanNumber_poised, scanSymbol_poised, readToken]

def lineAfter (line : Int) (current : Char) : Int :=
  if isLineBreak current then line + 1 else line

theorem scan_blank (blank : isBlank current = true) (ahead : List Delivery) :
    (lexer.poised [] current ahead).scan =
      (({ lexer with line := lineAfter lexer.line current } : Lexer).stopped []
        (Halt.moved lexer.reader.lastFailure current ahead)).andThen fun _ after => after.scan := by
  have counted : (lexer.poised [] current ahead).countLine.advance =
      ({ lexer with line := lineAfter lexer.line current } : Lexer).stopped []
        (Halt.moved lexer.reader.lastFailure current ahead) :=
    advance_poised { lexer with line := lineAfter lexer.line current } [] current ahead
  rw [scan_eq, skipBlanks_eq]
  change (Step.andThen (if isBlank current then
    Step.andThen (lexer.poised [] current ahead).countLine.advance _ else _) _) = _
  rw [if_pos blank, counted, Step.andThen_assoc]
  unfold stopped
  cases (Halt.moved lexer.reader.lastFailure current ahead).failure with
  | some failure => rfl
  | none => exact (scan_eq (settle _ _ _)).symm

theorem scan_comment (ahead : List Delivery) :
    (lexer.poised [] '#' ahead).scan = (lexer.poised [] '#' ahead).scanComment := by
  rw [scan_eq, skipBlanks_eq]
  rfl

def scanOn (lexer : Lexer) : Step Kind :=
  if lexer.lookahead.isSentinel || lexer.looksAt isLineBreak then lexer.scan else lexer.scanComment

theorem scanComment_poised (ahead : List Delivery) :
    (lexer.poised [] current ahead).scanComment =
      (lexer.stopped [] (Halt.moved lexer.reader.lastFailure current ahead)).andThen fun _ after =>
        after.scanOn := by
  rw [scanComment, skipComment_eq, advance_poised, Step.andThen_assoc]
  generalize Halt.moved lexer.reader.lastFailure current ahead = halt
  unfold stopped
  cases halt.failure with
  | some failure => rfl
  | none =>
      change (Step.andThen (if _ then _ else _) _) = scanOn _
      unfold scanOn
      cases atSentinel : (lexer.settle [] halt).lookahead.isSentinel with
      | true =>
          simp only [Bool.true_or, if_true, Step.andThen, atSentinel]
          exact (scan_sentinel atSentinel).symm
      | false =>
          simp only [Bool.false_or]
          split
          · simp only [Step.andThen, atSentinel, Bool.false_eq_true, if_false]
          · rfl

/-! ### All of it -/

theorem pass?_of_blank (blank : isBlank current = true) (line : Int) :
    Layout.pass? ⟨false, line⟩ current = some ⟨false, lineAfter line current⟩ := by
  unfold Layout.pass? lineAfter
  simp only [Bool.false_and, Bool.false_eq_true, if_false, blank, if_true]

theorem pass?_of_comment (unbroken : isLineBreak current = false) (line : Int) :
    Layout.pass? ⟨true, line⟩ current = some ⟨true, line⟩ := by
  unfold Layout.pass?
  simp only [unbroken, Bool.not_false, Bool.and_true, if_true]

theorem skipLayout_lineBreak
    (broken : isLineBreak current = true) (lastFailure : Option Failure) (line : Int)
    (ahead : List Delivery) :
    skipLayout lastFailure ⟨true, line⟩ current ahead =
      skipLayout lastFailure ⟨false, line⟩ current ahead := by
  have same : Layout.pass? ⟨true, line⟩ current = Layout.pass? ⟨false, line⟩ current := by
    unfold Layout.pass?
    rw [broken]
    rfl
  rw [skipLayout, skipLayout, same]

/-- A lexer that goes on after a move finds the token after the layout, if it does so at the next
character. -/
theorem moved_andThen
    {go : Lexer → Step Kind}
    (atSentinel : ∀ after : Lexer, after.lookahead.isSentinel = true →
      go after = (.ok .endOfInput, { after with lexeme := "" }))
    {ahead : List Delivery} {passed : Layout}
    (goes : ∀ next rest, ahead = .ok (.item next) :: rest →
      go (({ lexer with line := passed.line } : Lexer).poised [] next rest) =
        lexer.tokenAfter (skipLayout lexer.reader.lastFailure passed next rest)) :
    ((({ lexer with line := passed.line } : Lexer).stopped []
      (Halt.moved lexer.reader.lastFailure current ahead)).andThen fun _ after => go after) =
      lexer.tokenAfter
        (proceed (fun next rest => skipLayout lexer.reader.lastFailure passed next rest)
          (passed.line, .moved lexer.reader.lastFailure current ahead)
          (Halt.moved lexer.reader.lastFailure current ahead)) := by
  rw [stopped_andThen atSentinel]
  cases ahead with
  | nil =>
      unfold Halt.moved Halt.atEnd
      cases lexer.reader.lastFailure with
      | none => rfl
      | some failure => rfl
  | cons delivery rest =>
      cases delivery with
      | error failure => rfl
      | ok reading =>
          cases reading with
          | item next => exact goes next rest rfl
          | endOfInput => rfl
          | noData => rfl

theorem scanOn_sentinel
    {after : Lexer} (atSentinel : after.lookahead.isSentinel = true) :
    after.scanOn = (.ok .endOfInput, { after with lexeme := "" }) := by
  rw [scanOn, atSentinel, Bool.true_or, if_pos rfl, scan_sentinel atSentinel]

end Scan

structure Finds (lexer : Lexer) (current : Char) (ahead : List Delivery) : Prop where
  outside : (lexer.poised [] current ahead).scan =
    lexer.tokenAfter (skipLayout lexer.reader.lastFailure ⟨false, lexer.line⟩ current ahead)
  comment (unbroken : isLineBreak current = false) : (lexer.poised [] current ahead).scanComment =
    lexer.tokenAfter (skipLayout lexer.reader.lastFailure ⟨true, lexer.line⟩ current ahead)

theorem finds_of_later
    (lexer : Lexer) (current : Char) {ahead : List Delivery}
    (later : ∀ next rest, ahead = .ok (.item next) :: rest → ∀ other : Lexer, other.Finds next rest) :
    lexer.Finds current ahead := by
  have comment (unbroken : isLineBreak current = false) :
      (lexer.poised [] current ahead).scanComment =
        lexer.tokenAfter
          (skipLayout lexer.reader.lastFailure ⟨true, lexer.line⟩ current ahead) := by
    rw [scanComment_poised, skipLayout_passes (pass?_of_comment unbroken lexer.line)]
    apply @moved_andThen lexer current _ @scanOn_sentinel _ ⟨true, lexer.line⟩
    intro next rest split
    change (if isLineBreak next then (lexer.poised [] next rest).scan
      else (lexer.poised [] next rest).scanComment) = _
    cases broken : isLineBreak next with
    | true =>
        rw [skipLayout_lineBreak broken]
        exact (later next rest split lexer).outside
    | false => exact (later next rest split lexer).comment broken
  refine ⟨?_, comment⟩
  cases blank : isBlank current with
  | true =>
      rw [scan_blank lexer blank, skipLayout_passes (pass?_of_blank blank lexer.line)]
      apply @moved_andThen lexer current _ @scan_sentinel _ ⟨false, lineAfter lexer.line current⟩
      intro next rest split
      exact (later next rest split _).outside
  | false =>
      by_cases isComment : current = '#'
      · subst isComment
        rw [scan_comment, comment rfl, skipLayout_passes (pass?_of_comment rfl lexer.line)]
        rw [@skipLayout_passes _ ⟨false, lexer.line⟩ ⟨true, lexer.line⟩ '#' rfl]
      · have stops : Layout.pass? ⟨false, lexer.line⟩ current = none := by
          unfold Layout.pass?
          simp only [Bool.false_and, Bool.false_eq_true, if_false, blank, isComment]
        rw [scan_start lexer blank isComment, skipLayout_stops stops]
        rfl

theorem finds (lexer : Lexer) (current : Char) (ahead : List Delivery) :
    lexer.Finds current ahead := by
  induction ahead generalizing lexer current with
  | nil => exact finds_of_later lexer current fun next rest split => nomatch split
  | cons delivery rest inductionHypothesis =>
      apply finds_of_later
      intro next others split other
      rw [← (List.cons.inj split).2]
      exact inductionHypothesis other next

/-- Taken character by character, a token is the same. -/
theorem scan_eq_next (lexer : Lexer) : lexer.scan = lexer.next := by
  obtain ⟨reader, lexeme, lookahead, line⟩ := lexer
  cases lookahead with
  | item current =>
      rw [next_eq_tokenAfter rfl, ← (finds _ _ _).outside, scan_eq, scan_eq]
      rfl
  | endOfInput => exact scan_sentinel rfl
  | noData => exact scan_sentinel rfl

end Lexer

end ExprWasm.Token
