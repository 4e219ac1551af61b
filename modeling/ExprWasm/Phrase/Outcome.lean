import ExprWasm.Failure
import ExprWasm.Token.Lexed

/-! What reading a phrase from a list of tokens can come to.

The first token of a list is the lookahead. A phrase that is read takes tokens off the list; one
that is not there is rejected with a diagnostic at the token that does not fit. The list of a source
that could be read to its end closes with the end of the input, which no phrase takes. If the list
is shorter, because a read failed, a phrase can run out of tokens. -/

set_option autoImplicit false

namespace ExprWasm.Phrase

open Token (Kind Lexed)

inductive Complaint where
  | definitionExpected
  | semicolonMissing
  | nameExpected
  | openingExpected
  | closingExpected
  | thenExpected
  | elseExpected
  | operandExpected
  | closingMissing
  | argumentEndExpected
  deriving DecidableEq

namespace Complaint

def text : Complaint → String
  | definitionExpected => "Expected 'def'"
  | semicolonMissing => "Missing ';'"
  | nameExpected => "Expected function name in prototype"
  | openingExpected => "Expected '(' in prototype"
  | closingExpected => "Expected ')' in prototype"
  | thenExpected => "Expected 'then'"
  | elseExpected => "Expected 'else'"
  | operandExpected => "Expected identifier or number"
  | closingMissing => "Missing ')'"
  | argumentEndExpected => "Expected ')' or ',' in argument list"

def about (complaint : Complaint) (token : Lexed) : Diagnostic :=
  ⟨token.line, complaint.text⟩

end Complaint

inductive Outcome (α : Type) where
  /-- The phrase was read and `rest` follows it. -/
  | accepted (value : α) (rest : List Lexed)
  /-- The phrase is not there; `rest` begins with the token that does not fit. -/
  | rejected (diagnostic : Diagnostic) (rest : List Lexed)
  /-- The tokens ran out before the phrase was complete. -/
  | interrupted
  /-- A rule of the compiler was broken. -/
  | failed (failure : Failure)

namespace Outcome

variable {α β : Type}

@[inline]
def andThen (outcome : Outcome α) (continuation : α → List Lexed → Outcome β) : Outcome β :=
  match outcome with
  | accepted value rest => continuation value rest
  | rejected diagnostic rest => rejected diagnostic rest
  | interrupted => interrupted
  | failed failure => failed failure

@[simp]
theorem andThen_accepted
    (value : α) (rest : List Lexed) (continuation : α → List Lexed → Outcome β) :
    (accepted value rest).andThen continuation = continuation value rest := rfl

@[simp]
theorem andThen_rejected
    (diagnostic : Diagnostic) (rest : List Lexed) (continuation : α → List Lexed → Outcome β) :
    (rejected diagnostic rest).andThen continuation = rejected diagnostic rest := rfl

@[simp]
theorem andThen_interrupted (continuation : α → List Lexed → Outcome β) :
    (interrupted : Outcome α).andThen continuation = interrupted := rfl

@[simp]
theorem andThen_failed (failure : Failure) (continuation : α → List Lexed → Outcome β) :
    (failed failure : Outcome α).andThen continuation = failed failure := rfl

end Outcome

def expect (kind : Kind) (complaint : Complaint) : List Lexed → Outcome Lexed
  | [] => .interrupted
  | token :: rest =>
      if token.kind = kind then .accepted token rest
      else .rejected (complaint.about token) (token :: rest)

end ExprWasm.Phrase
