import ExprWasm.Proofs.Source.Decoding
import ExprWasm.Token.Listing

/-! What one call for a token comes to.

The deliveries ahead of a lexer are a text and then a failure, a sentinel or nothing. Two functions
on the text describe the call: `skip` passes over white space and comments, and `spell` splits the
rest into the characters of one token and what follows. What comes after the text matters only to a
call that uses all of it up.

Main statement: `Lexer.next_text`. A lexer with nothing but a text ahead is `Lexer.facing` it, and
its calls are `Lexer.next_facing`. -/

set_option autoImplicit false

namespace ExprWasm.Token

open Source (Reading Delivery isNameStart isNamePart isBlank isLineBreak)
open Number (Decimal)

def plain (text : List Char) : List Delivery :=
  text.map fun c => .ok (.item c)

/-- No character comes first, so that a text before the deliveries ends there. -/
def EndsText (stop : List Delivery) : Prop :=
  ∀ c rest, stop ≠ .ok (.item c) :: rest

theorem exists_plain_append (ahead : List Delivery) :
    ∃ text stop, ahead = plain text ++ stop ∧ EndsText stop := by
  induction ahead with
  | nil => exact ⟨[], [], rfl, fun _ _ same => nomatch same⟩
  | cons delivery rest inductionHypothesis =>
      cases delivery with
      | error failure => exact ⟨[], _, rfl, fun _ _ same => nomatch same⟩
      | ok reading =>
          cases reading with
          | endOfInput => exact ⟨[], _, rfl, fun _ _ same => nomatch same⟩
          | noData => exact ⟨[], _, rfl, fun _ _ same => nomatch same⟩
          | item c =>
              obtain ⟨text, stop, split, ends⟩ := inductionHypothesis
              exact ⟨c :: text, stop, by rw [split]; rfl, ends⟩

/-! ### Halts -/

namespace Halt

def moved (lastFailure : Option Failure) (current : Char) : List Delivery → Halt
  | [] => .atEnd lastFailure current
  | .error failure :: rest => ⟨.item current, rest, some failure⟩
  | .ok reading :: rest => ⟨reading, rest, none⟩

/-- The halt in front of a text, whose last character before was `last`. -/
def within (lastFailure : Option Failure) (stop : List Delivery) (last : Char) : List Char → Halt
  | [] => moved lastFailure last stop
  | c :: text => ⟨.item c, plain text ++ stop, none⟩

theorem moved_plain
    (lastFailure : Option Failure) (stop : List Delivery) (current : Char) (text : List Char) :
    moved lastFailure current (plain text ++ stop) = within lastFailure stop current text := by
  cases text with
  | nil => rfl
  | cons c text => rfl

theorem moved_ne_item
    {stop : List Delivery} (ends : EndsText stop) (lastFailure : Option Failure) (current c : Char)
    (rest : List Delivery) : moved lastFailure current stop ≠ ⟨.item c, rest, none⟩ := by
  cases stop with
  | nil =>
      cases lastFailure with
      | none => exact fun same => nomatch same
      | some failure => exact fun same => nomatch same
  | cons delivery further =>
      cases delivery with
      | error failure => exact fun same => nomatch same
      | ok reading =>
          intro same
          cases same
          exact ends c rest rfl

end Halt

/-! ### Spellings -/

def skip : Layout → List Char → Int × List Char
  | layout, [] => (layout.line, [])
  | layout, c :: text =>
      match layout.pass? c with
      | none => (layout.line, c :: text)
      | some passed => skip passed text

structure Spelling where
  kind : Kind
  characters : List Char
  rest : List Char

def spellPair (current : Char) (text : List Char) (second : Char) (pair single : Kind) : Spelling :=
  match text with
  | [] => ⟨single, [current], []⟩
  | next :: rest =>
      if next = second then ⟨pair, [current, next], rest⟩ else ⟨single, [current], next :: rest⟩

def spellNumber (current : Char) (text : List Char) : Spelling :=
  match text.dropWhile Decimal.isDigit with
  | '.' :: rest =>
      ⟨.number, current :: text.takeWhile Decimal.isDigit ++ '.' :: rest.takeWhile Decimal.isDigit,
        rest.dropWhile Decimal.isDigit⟩
  | rest => ⟨.number, current :: text.takeWhile Decimal.isDigit, rest⟩

def spell (current : Char) (text : List Char) : Spelling :=
  if isNameStart current then
    ⟨.ofWord (String.ofList (current :: text.takeWhile isNamePart)),
      current :: text.takeWhile isNamePart, text.dropWhile isNamePart⟩
  else if Decimal.isDigit current then spellNumber current text
  else if current = '<' then spellPair current text '>' .notEqual .less
  else if current = '=' then spellPair current text '=' .equal .noToken
  else ⟨(Kind.ofSymbol? current).getD .invalid, [current], text⟩

/-! ### Runs over a text -/

/-- A run that accepts no character takes the one it begins with. -/
theorem takeWhile_none
    (lastFailure : Option Failure) (taken : List Char) (current : Char) (ahead : List Delivery) :
    takeWhile (fun _ => false) lastFailure taken current ahead =
      (current :: taken, .moved lastFailure current ahead) := by
  unfold takeWhile Halt.moved
  split
  · rfl
  · rfl
  · rfl
  · rfl

section Runs

variable {stop : List Delivery} (ends : EndsText stop) (lastFailure : Option Failure)

include ends

theorem takeWhile_stop (accepts : Char → Bool) (taken : List Char) (current : Char) :
    takeWhile accepts lastFailure taken current stop =
      (current :: taken, .moved lastFailure current stop) := by
  unfold takeWhile Halt.moved
  split
  · rfl
  · rfl
  · exact absurd rfl (ends _ _)
  · rfl

theorem takeWhile_text
    (accepts : Char → Bool) (taken : List Char) (current : Char) (text : List Char) :
    takeWhile accepts lastFailure taken current (plain text ++ stop) =
      ((text.takeWhile accepts).reverse ++ current :: taken,
        .within lastFailure stop ((text.takeWhile accepts).getLastD current)
          (text.dropWhile accepts)) := by
  induction text generalizing taken current with
  | nil => exact takeWhile_stop ends lastFailure accepts taken current
  | cons next text inductionHypothesis =>
      change takeWhile accepts lastFailure taken current (.ok (.item next) :: (plain text ++ stop)) = _
      rw [takeWhile]
      by_cases accepted : accepts next = true
      · rw [if_pos accepted, inductionHypothesis, List.takeWhile_cons_of_pos accepted,
          List.dropWhile_cons_of_pos accepted, List.reverse_cons, List.append_assoc,
          List.singleton_append, List.getLastD_cons]
      · rw [if_neg accepted, List.takeWhile_cons_of_neg accepted,
          List.dropWhile_cons_of_neg accepted]
        rfl

theorem skipLayout_text (layout : Layout) (current : Char) (text : List Char) :
    skipLayout lastFailure layout current (plain text ++ stop) =
      ((skip layout (current :: text)).1,
        .within lastFailure stop (text.getLastD current) (skip layout (current :: text)).2) := by
  induction text generalizing layout current with
  | nil =>
      rw [skipLayout, skip]
      cases layout.pass? current with
      | none => rfl
      | some passed =>
          cases stop with
          | nil => rfl
          | cons delivery rest =>
              cases delivery with
              | error failure => rfl
              | ok reading =>
                  cases reading with
                  | item c => exact absurd rfl (ends c rest)
                  | endOfInput => rfl
                  | noData => rfl
  | cons next text inductionHypothesis =>
      rw [skipLayout, skip, List.getLastD_cons]
      cases layout.pass? current with
      | none => rfl
      | some passed => exact inductionHypothesis passed next

end Runs

/-! ### Calls -/

namespace Lexer

def afterSpelling (lexer : Lexer) (stop : List Delivery) (spelling : Spelling) :
    Except Failure Kind × Lexer :=
  lexer.finish spelling.kind spelling.characters.reverse
    (.within lexer.reader.lastFailure stop (spelling.characters.getLastD ' ') spelling.rest)

section Calls

variable {stop : List Delivery} (ends : EndsText stop)

include ends

theorem readPair_text
    (lexer : Lexer) (current : Char) (text : List Char) (second : Char) (pair single : Kind) :
    lexer.readPair current (plain text ++ stop) second pair single =
      lexer.afterSpelling stop (spellPair current text second pair single) := by
  unfold readPair
  rw [takeWhile_none, Halt.moved_plain]
  cases text with
  | nil =>
      simp only [Halt.within]
      split
      · rename_i next rest atItem
        exact absurd atItem (Halt.moved_ne_item ends _ _ next rest)
      · rfl
  | cons next rest =>
      simp only [Halt.within, spellPair]
      by_cases matching : next = second
      · rw [if_pos matching, if_pos matching, takeWhile_none, Halt.moved_plain]
        rfl
      · rw [if_neg matching, if_neg matching]
        rfl

theorem readNumber_text (lexer : Lexer) (current : Char) (text : List Char) :
    lexer.readNumber current (plain text ++ stop) =
      lexer.afterSpelling stop (spellNumber current text) := by
  unfold readNumber spellNumber afterSpelling
  rw [takeWhile_text ends]
  cases after : text.dropWhile Decimal.isDigit with
  | nil =>
      simp only [Halt.within]
      split
      · rename_i rest atItem
        exact absurd atItem (Halt.moved_ne_item ends _ _ '.' rest)
      · rw [List.reverse_cons, List.getLastD_cons]
  | cons next rest =>
      by_cases point : next = '.'
      · subst point
        have last : (current :: text.takeWhile Decimal.isDigit ++
            '.' :: rest.takeWhile Decimal.isDigit).getLastD ' ' =
              (rest.takeWhile Decimal.isDigit).getLastD '.' := by
          simp [List.getLastD_eq_getLast?, List.getLast?_cons]
        simp only [Halt.within, takeWhile_text ends, last, List.reverse_append, List.reverse_cons,
          List.append_assoc, List.singleton_append]
      · simp [Halt.within, point]

theorem readToken_text (lexer : Lexer) (current : Char) (text : List Char) :
    lexer.readToken current (plain text ++ stop) = lexer.afterSpelling stop (spell current text) := by
  unfold readToken spell
  by_cases name : isNameStart current = true
  · rw [if_pos name, if_pos name]
    unfold readWord afterSpelling
    rw [takeWhile_text ends, List.reverse_cons, List.getLastD_cons]
    simp only [List.reverse_append, List.reverse_reverse, List.reverse_singleton,
      List.singleton_append]
  · rw [if_neg name, if_neg name]
    by_cases digit : Decimal.isDigit current = true
    · rw [if_pos digit, if_pos digit]
      exact readNumber_text ends lexer current text
    · rw [if_neg digit, if_neg digit]
      unfold readSymbol
      by_cases less : current = '<'
      · rw [if_pos less, if_pos less]
        exact readPair_text ends lexer current text _ _ _
      · rw [if_neg less, if_neg less]
        by_cases equal : current = '='
        · rw [if_pos equal, if_pos equal]
          exact readPair_text ends lexer current text _ _ _
        · rw [if_neg equal, if_neg equal, takeWhile_none, Halt.moved_plain]
          rfl

/-- The next token of a lexer at a character, with a text ahead and something else after it. -/
theorem next_text
    {lexer : Lexer} {current : Char} {text : List Char} (atItem : lexer.lookahead = .item current)
    (split : lexer.reader.ahead = plain text ++ stop) :
    lexer.next =
      match skip ⟨false, lexer.line⟩ (current :: text) with
      | (line, []) =>
          finish { lexer with line := line } .endOfInput []
            (.moved lexer.reader.lastFailure (text.getLastD current) stop)
      | (line, c :: rest) => afterSpelling { lexer with line := line } stop (spell c rest) := by
  unfold next
  rw [atItem, split]
  simp only [skipLayout_text ends]
  cases skip ⟨false, lexer.line⟩ (current :: text) with
  | mk line rest =>
      cases rest with
      | cons c rest => exact readToken_text ends { lexer with line := line } c rest
      | nil =>
          simp only [Halt.within]
          split
          · rename_i next rest stopped
            exact absurd stopped (Halt.moved_ne_item ends _ _ next rest)
          · rfl

end Calls

end Lexer

/-! ### Nothing but a text -/

def Halt.before : List Char → Halt
  | [] => ⟨.endOfInput, [], none⟩
  | c :: text => ⟨.item c, plain text, none⟩

theorem Halt.within_nil (last : Char) (text : List Char) :
    Halt.within none [] last text = .before text := by
  cases text with
  | nil => rfl
  | cons c text => rw [within, List.append_nil, before]

def Lexer.facing (text : List Char) (lexeme : String) (line : Int) : Lexer :=
  ⟨⟨(Halt.before text).ahead, none⟩, lexeme, (Halt.before text).lookahead, line⟩

namespace Lexer

theorem finish_before
    {lexer : Lexer} (unfailing : lexer.reader.lastFailure = none)
    (kind : Kind) (taken text : List Char) :
    lexer.finish kind taken (.before text) =
      (.ok kind, facing text (String.ofList taken.reverse) lexer.line) := by
  obtain ⟨⟨ahead, lastFailure⟩, lexeme, lookahead, line⟩ := lexer
  cases unfailing
  cases text <;> rfl

theorem next_facing (text : List Char) (lexeme : String) (line : Int) :
    (facing text lexeme line).next =
      match skip ⟨false, line⟩ text with
      | (line, []) => (.ok .endOfInput, facing [] "" line)
      | (line, c :: text) =>
          (.ok (spell c text).kind,
            facing (spell c text).rest (String.ofList (spell c text).characters) line) := by
  cases text with
  | nil => rfl
  | cons current text =>
      have noStop : EndsText [] := fun _ _ same => nomatch same
      have sameLine : (facing (current :: text) lexeme line).line = line := rfl
      rw [@next_text [] noStop (facing (current :: text) lexeme line) current text rfl
        (List.append_nil _).symm, sameLine]
      cases skip ⟨false, line⟩ (current :: text) with
      | mk line rest =>
          cases rest with
          | nil => rfl
          | cons c rest =>
              simp only [afterSpelling]
              change finish _ _ _ (.within none [] _ _) = _
              rw [Halt.within_nil, finish_before rfl, List.reverse_reverse]

end Lexer

end ExprWasm.Token
