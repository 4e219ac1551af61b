import ExprWasm.Source.Reader
import ExprWasm.Token.Lexed

/-! Tokens from characters, with one character of lookahead.

White space and comments are skipped; then the longest token that begins at the lookahead is taken.
A name is a letter with letters and numerals after it, a number is ASCII digits with a point and
further digits after it if they are there, and all else is a symbol of one or two characters. When a
read fails in the middle of a token the lexer keeps the lookahead it had, and its next token begins
there. -/

set_option autoImplicit false

namespace ExprWasm.Token

open Source (Reading Delivery Reader isNameStart isNamePart isBlank isLineBreak)
open Number (Decimal)

/-- Where a run over characters has come to: the lookahead, what is still to be read, and the
failure that stopped the run if one did. -/
structure Halt where
  lookahead : Reading Char
  ahead : List Delivery
  failure : Option Failure

namespace Halt

def atEnd (lastFailure : Option Failure) (current : Char) : Halt :=
  match lastFailure with
  | none => ⟨.endOfInput, [], none⟩
  | some failure => ⟨.item current, [], some failure⟩

end Halt

/-- Takes `current` and then every character that is accepted. The result holds the characters
taken, the last one first, on top of those in `taken`. -/
def takeWhile (accepts : Char → Bool) (lastFailure : Option Failure) :
    List Char → Char → List Delivery → List Char × Halt
  | taken, current, [] => (current :: taken, .atEnd lastFailure current)
  | taken, current, .error failure :: rest =>
      (current :: taken, ⟨.item current, rest, some failure⟩)
  | taken, current, .ok (.item next) :: rest =>
      if accepts next then takeWhile accepts lastFailure (current :: taken) next rest
      else (current :: taken, ⟨.item next, rest, none⟩)
  | taken, current, .ok sentinel :: rest => (current :: taken, ⟨sentinel, rest, none⟩)

structure Layout where
  inComment : Bool
  line : Int
  deriving DecidableEq

namespace Layout

/-- The state after a character, or nothing if the character begins a token. A comment goes on to
the end of its line, and the character that ends it is counted as white space. -/
def pass? (layout : Layout) (current : Char) : Option Layout :=
  if layout.inComment && !isLineBreak current then some layout
  else if isBlank current then
    some ⟨false, if isLineBreak current then layout.line + 1 else layout.line⟩
  else if current = '#' then some ⟨true, layout.line⟩
  else none

end Layout

def skipLayout (lastFailure : Option Failure) :
    Layout → Char → List Delivery → Int × Halt
  | layout, current, ahead =>
      match layout.pass? current with
      | none => (layout.line, ⟨.item current, ahead, none⟩)
      | some passed =>
          match ahead with
          | [] => (passed.line, .atEnd lastFailure current)
          | .error failure :: rest => (passed.line, ⟨.item current, rest, some failure⟩)
          | .ok (.item next) :: rest => skipLayout lastFailure passed next rest
          | .ok sentinel :: rest => (passed.line, ⟨sentinel, rest, none⟩)

/-- A lexer at work. `lexeme` is the text of the token that was read last, as far as it was read. -/
structure Lexer where
  reader : Reader
  lexeme : String
  lookahead : Reading Char
  line : Int

namespace Lexer

/-- A lexer at the beginning of a source. Its lookahead is a blank, so that the first token begins
with the first character read. -/
def ofReader (reader : Reader) : Lexer :=
  ⟨reader, "", .item ' ', 1⟩

def ofSource (chunks : List Source.Chunk) : Lexer :=
  ofReader (.ofSource chunks)

def settle (lexer : Lexer) (taken : List Char) (halt : Halt) : Lexer :=
  { lexer with
    reader := { lexer.reader with ahead := halt.ahead }
    lexeme := String.ofList taken.reverse
    lookahead := halt.lookahead }

def finish (lexer : Lexer) (kind : Kind) (taken : List Char) (halt : Halt) :
    Except Failure Kind × Lexer :=
  match halt.failure with
  | some failure => (.error failure, lexer.settle taken halt)
  | none => (.ok kind, lexer.settle taken halt)

def readWord (lexer : Lexer) (current : Char) (ahead : List Delivery) :
    Except Failure Kind × Lexer :=
  let (taken, halt) := takeWhile isNamePart lexer.reader.lastFailure [] current ahead
  lexer.finish (.ofWord (String.ofList taken.reverse)) taken halt

def readNumber (lexer : Lexer) (current : Char) (ahead : List Delivery) :
    Except Failure Kind × Lexer :=
  let (whole, halt) := takeWhile Decimal.isDigit lexer.reader.lastFailure [] current ahead
  match halt with
  | ⟨.item '.', rest, none⟩ =>
      let (taken, halt) := takeWhile Decimal.isDigit lexer.reader.lastFailure whole '.' rest
      lexer.finish .number taken halt
  | halt => lexer.finish .number whole halt

/-- A symbol that begins with `current`: together with the next character if that is `second`, and
otherwise alone. -/
def readPair (lexer : Lexer) (current : Char) (ahead : List Delivery)
    (second : Char) (pair single : Kind) : Except Failure Kind × Lexer :=
  let (taken, halt) := takeWhile (fun _ => false) lexer.reader.lastFailure [] current ahead
  match halt with
  | ⟨.item next, rest, none⟩ =>
      if next = second then
        let (taken, halt) := takeWhile (fun _ => false) lexer.reader.lastFailure taken next rest
        lexer.finish pair taken halt
      else lexer.finish single taken halt
  | halt => lexer.finish single taken halt

def readSymbol (lexer : Lexer) (current : Char) (ahead : List Delivery) :
    Except Failure Kind × Lexer :=
  if current = '<' then lexer.readPair current ahead '>' .notEqual .less
  else if current = '=' then lexer.readPair current ahead '=' .equal .noToken
  else
    let (taken, halt) := takeWhile (fun _ => false) lexer.reader.lastFailure [] current ahead
    lexer.finish ((Kind.ofSymbol? current).getD .invalid) taken halt

def readToken (lexer : Lexer) (current : Char) (ahead : List Delivery) :
    Except Failure Kind × Lexer :=
  if isNameStart current then lexer.readWord current ahead
  else if Decimal.isDigit current then lexer.readNumber current ahead
  else lexer.readSymbol current ahead

/-- The next token. At a sentinel it is the end of the input, and the lexer stays where it is. -/
def next (lexer : Lexer) : Except Failure Kind × Lexer :=
  match lexer.lookahead with
  | .item current =>
      let (line, halt) :=
        skipLayout lexer.reader.lastFailure ⟨false, lexer.line⟩ current lexer.reader.ahead
      let lexer := { lexer with line := line }
      match halt with
      | ⟨.item current, ahead, none⟩ => lexer.readToken current ahead
      | halt => lexer.finish .endOfInput [] halt
  | _ => (.ok .endOfInput, { lexer with lexeme := "" })

/-- Moves the lookahead on by one reading; after a failed read it stays. -/
def advance (lexer : Lexer) : Except Failure Unit × Lexer :=
  let (delivery, reader) := lexer.reader.next
  match delivery with
  | .ok reading => (.ok (), { lexer with reader := reader, lookahead := reading })
  | .error failure => (.error failure, { lexer with reader := reader })

def lexed (lexer : Lexer) (kind : Kind) : Lexed :=
  ⟨kind, lexer.lexeme, lexer.line⟩

def remaining (lexer : Lexer) : Nat :=
  lexer.reader.ahead.length + if lexer.lookahead.isSentinel then 0 else 1

end Lexer

end ExprWasm.Token
