import ExprWasm.Event
import ExprWasm.Phrase.Definition
import ExprWasm.Token.Listing

/-! Programs from tokens: definitions, each with a semicolon after it.

A syntax error does not end the reading of a program. The rest of a broken definition is skipped up
to the next semicolon, and what follows is read as if nothing had happened. A semicolon that is
missing is noted and reading goes on with the token in its place. -/

set_option autoImplicit false

namespace ExprWasm.Phrase

open Token (Kind Lexed Lexer)
open ExprWasm.Tree (Function)

/-- What has been found in a program so far, the latest first. -/
structure Findings where
  functions : List Function := []
  diagnostics : List Diagnostic := []
  events : List Event := []

namespace Findings

def diagnose (findings : Findings) (diagnostic : Diagnostic) : Findings :=
  { findings with
    diagnostics := diagnostic :: findings.diagnostics
    events := .diagnosed diagnostic :: findings.events }

def define (findings : Findings) (function : Function) : Findings :=
  { findings with
    functions := function :: findings.functions
    events := .definitionParsed function.name :: findings.events }

def log (findings : Findings) (event : Event) : Findings :=
  { findings with events := event :: findings.events }

end Findings

inductive Ending where
  | complete
  | interrupted
  | failed (failure : Failure)
  deriving DecidableEq

def isBoundary (kind : Kind) : Bool :=
  kind = .endOfInput || kind = .semicolon

/-- The tokens from the next boundary on, and how many stand before it on top of those `skipped`. -/
def skipToBoundary (skipped : Nat) : List Lexed → Nat × List Lexed
  | [] => (skipped, [])
  | token :: rest =>
      if isBoundary token.kind then (skipped, token :: rest)
      else skipToBoundary (skipped + 1) rest

def recover (findings : Findings) (tokens : List Lexed) : Findings × List Lexed :=
  match skipToBoundary 0 tokens with
  | (0, rest) => (findings, rest)
  | (_, []) => (findings, [])
  | (skipped, boundary :: rest) =>
      (findings.log (.recovered skipped boundary.kind), boundary :: rest)

/-- One definition, or what stands in the place of one, up to where its semicolon should be. -/
def itemWithin (allowance : Nat) (findings : Findings) :
    List Lexed → Except Ending (Findings × List Lexed)
  | [] => .error .interrupted
  | token :: rest =>
      if token.kind = .define then
        match definitionWithin allowance rest with
        | .accepted function rest => .ok (findings.define function, rest)
        | .rejected diagnostic rest => .ok (recover (findings.diagnose diagnostic) rest)
        | .interrupted => .error .interrupted
        | .failed failure => .error (.failed failure)
      else
        .ok (recover (findings.diagnose (Complaint.definitionExpected.about token)) (token :: rest))

def terminator (findings : Findings) : List Lexed → Findings × List Lexed
  | [] => (findings, [])
  | token :: rest =>
      if token.kind = .semicolon then (findings, rest)
      else (findings.diagnose (Complaint.semicolonMissing.about token), token :: rest)

/-- The rest of a program with at most `items` definitions, each of them within the allowance. -/
def programWithin (allowance : Nat) :
    (items : Nat) → Findings → List Lexed → Findings × Ending
  | 0, findings, _ => (findings, .interrupted)
  | _ + 1, findings, [] => (findings, .interrupted)
  | items + 1, findings, token :: rest =>
      if token.kind = .endOfInput then (findings, .complete)
      else
        match itemWithin allowance findings (token :: rest) with
        | .error ending => (findings, ending)
        | .ok (findings, rest) =>
            let (findings, rest) := terminator findings rest
            programWithin allowance items findings rest

/-- A whole program, on top of what was found before. It has fewer definitions than tokens. -/
def program (findings : Findings) (tokens : List Lexed) : Findings × Ending :=
  programWithin (allowanceFor tokens) (tokens.length + 1) findings tokens

/-- A parser at work on a source. The functions and diagnostics of all its runs are kept, in order;
`token` is the kind of the lookahead. -/
structure Parser where
  lexer : Lexer
  token : Kind := .noToken
  functions : List Function := []
  diagnostics : List Diagnostic := []

structure Run where
  outcome : Except Failure Unit
  parser : Parser
  events : List Event

namespace Parser

def ofSource (chunks : List Source.Chunk) (diagnostics : List Diagnostic) : Parser :=
  { lexer := .ofSource chunks, diagnostics := diagnostics }

def parse (parser : Parser) : Run :=
  let listing := parser.lexer.listing
  let start : Findings :=
    { functions := parser.functions.reverse, diagnostics := parser.diagnostics.reverse }
  let (findings, ending) := program start listing.tokens
  let after : Parser :=
    { lexer := listing.lexer
      token := (listing.tokens.getLast?.map Lexed.kind).getD parser.token
      functions := findings.functions.reverse
      diagnostics := findings.diagnostics.reverse }
  match ending, listing.failure with
  | .failed failure, _ => ⟨.error failure, after, findings.events.reverse⟩
  | .interrupted, some failure => ⟨.error failure, after, findings.events.reverse⟩
  | _, _ =>
      let summary := Event.sourceParsed after.functions.length after.diagnostics.length
      ⟨.ok (), after, (summary :: findings.events).reverse⟩

end Parser

end ExprWasm.Phrase
