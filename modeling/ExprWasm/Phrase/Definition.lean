import ExprWasm.Phrase.Expression

/-! Definitions of functions from tokens.

The expressions of a definition are read with one allowance, that of all its tokens. -/

set_option autoImplicit false

namespace ExprWasm.Phrase

open Token (Kind Lexed)
open ExprWasm.Tree (Node Prototype Function)

def parameters (tokens : List Lexed) : List String :=
  (tokens.takeWhile fun token => token.kind = .identifier).map Lexed.lexeme

def afterParameters (tokens : List Lexed) : List Lexed :=
  tokens.dropWhile fun token => token.kind = .identifier

def prototype (tokens : List Lexed) : Outcome Prototype :=
  (expect .identifier .nameExpected tokens).andThen fun name rest =>
    (expect .leftParenthesis .openingExpected rest).andThen fun _ rest =>
      (expect .rightParenthesis .closingExpected (afterParameters rest)).andThen fun _ after =>
        .accepted ⟨name.lexeme, parameters rest⟩ after

def conditionalWithin (allowance : Nat) (tokens : List Lexed) : Outcome Node :=
  (expressionWithin allowance tokens).andThen fun condition rest =>
    (expect .thenWord .thenExpected rest).andThen fun _ rest =>
      (expressionWithin allowance rest).andThen fun whenTrue rest =>
        (expect .elseWord .elseExpected rest).andThen fun _ rest =>
          (expressionWithin allowance rest).andThen fun whenFalse rest =>
            .accepted (.conditional condition whenTrue whenFalse) rest

def bodyWithin (allowance : Nat) : List Lexed → Outcome Node
  | [] => .interrupted
  | token :: rest =>
      if token.kind = .ifWord then conditionalWithin allowance rest
      else expressionWithin allowance (token :: rest)

/-- A definition, after the word that opens it. -/
def definitionWithin (allowance : Nat) (tokens : List Lexed) : Outcome Function :=
  (prototype tokens).andThen fun head rest =>
    (bodyWithin allowance rest).andThen fun body rest => .accepted ⟨head, body⟩ rest

def definition (tokens : List Lexed) : Outcome Function :=
  definitionWithin (allowanceFor tokens) tokens

end ExprWasm.Phrase
