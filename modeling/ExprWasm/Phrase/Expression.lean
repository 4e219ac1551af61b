import ExprWasm.Number.Decimal
import ExprWasm.Phrase.Outcome
import ExprWasm.Tree.Node

/-! Expressions from tokens.

An expression is a chain of factors with binary operators between them. Operators wait on a stack
until one of the same or a lower precedence arrives, so that each tier of precedence is folded to
the left and the higher tiers bind more tightly. The minus sign before a factor takes a whole
expression as its operand.

Every call is made with a smaller allowance of nested calls. The allowance for a list of tokens that
`expression` starts with is never used up before the tokens are. -/

set_option autoImplicit false

namespace ExprWasm.Phrase

open Token (Kind Lexed)
open ExprWasm.Tree (Node Operator)

structure Waiting where
  precedence : Nat
  operator : Operator
  deriving DecidableEq

def reduce (operator : Operator) : List Node → Except Failure (List Node)
  | right :: left :: operands => .ok (.binary operator left right :: operands)
  | _ => .error .emptyStack

/-- Joins operands for as long as the operator on top of the stack binds at least as tightly as one
of the given precedence. -/
def reduceFrom (precedence : Nat) :
    List Node → List Waiting → Except Failure (List Node × List Waiting)
  | operands, [] => .ok (operands, [])
  | operands, top :: waiting =>
      if precedence ≤ top.precedence then
        match reduce top.operator operands with
        | .ok reduced => reduceFrom precedence reduced waiting
        | .error failure => .error failure
      else .ok (operands, top :: waiting)

def numeral (token : Lexed) (rest : List Lexed) : Outcome Node :=
  match Number.Decimal.read? token.lexeme.toList with
  | some decimal => .accepted (.number decimal.toBinary64) rest
  | none => .failed (.notANumber token.lexeme)

mutual

def expressionWithin : (allowance : Nat) → List Lexed → Outcome Node
  | 0, _ => .interrupted
  | allowance + 1, tokens =>
      (factorWithin allowance tokens).andThen fun operand rest =>
        chainWithin allowance [operand] [] rest

/-- The rest of a chain, given the operands and the operators that have been read. -/
def chainWithin :
    (allowance : Nat) → List Node → List Waiting → List Lexed → Outcome Node
  | 0, _, _, _ => .interrupted
  | _ + 1, _, _, [] => .interrupted
  | allowance + 1, operands, waiting, token :: rest =>
      let precedence := token.kind.precedence
      match reduceFrom precedence operands waiting with
      | .error failure => .failed failure
      | .ok (operands, waiting) =>
          if precedence = 0 then
            match operands with
            | [node] => .accepted node (token :: rest)
            | _ => .failed .emptyStack
          else
            match Operator.ofToken token.kind with
            | .error failure => .failed failure
            | .ok operator =>
                (factorWithin allowance rest).andThen fun operand rest =>
                  chainWithin allowance (operand :: operands)
                    (⟨precedence, operator⟩ :: waiting) rest

def factorWithin : (allowance : Nat) → List Lexed → Outcome Node
  | 0, _ => .interrupted
  | _ + 1, [] => .interrupted
  | allowance + 1, token :: rest =>
      match token.kind with
      | .identifier => nameWithin allowance token.lexeme rest
      | .number => numeral token rest
      | .minus =>
          (expressionWithin allowance rest).andThen fun operand rest =>
            .accepted (.unary .negate operand) rest
      | .leftParenthesis =>
          (expressionWithin allowance rest).andThen fun node rest =>
            (expect .rightParenthesis .closingMissing rest).andThen fun _ rest =>
              .accepted node rest
      | _ => .rejected (Complaint.operandExpected.about token) (token :: rest)

/-- What follows a name: the arguments of a call if a parenthesis is opened, and otherwise
nothing. -/
def nameWithin : (allowance : Nat) → String → List Lexed → Outcome Node
  | 0, _, _ => .interrupted
  | _ + 1, _, [] => .interrupted
  | allowance + 1, name, token :: rest =>
      if token.kind = .leftParenthesis then
        match rest with
        | [] => .interrupted
        | first :: afterFirst =>
            if first.kind = .rightParenthesis then .accepted (.call name []) afterFirst
            else argumentsWithin allowance name [] rest
      else .accepted (.reference name) (token :: rest)

/-- The arguments of a call up to its closing parenthesis, after those in `found`, the last one
first. -/
def argumentsWithin :
    (allowance : Nat) → String → List Node → List Lexed → Outcome Node
  | 0, _, _, _ => .interrupted
  | allowance + 1, name, found, tokens =>
      (expressionWithin allowance tokens).andThen fun argument rest =>
        match rest with
        | [] => .interrupted
        | token :: afterToken =>
            if token.kind = .rightParenthesis then
              .accepted (.call name (argument :: found).reverse) afterToken
            else if token.kind = .comma then
              argumentsWithin allowance name (argument :: found) afterToken
            else .rejected (Complaint.argumentEndExpected.about token) (token :: afterToken)

end

/-- An allowance that suffices for every expression within the given tokens. -/
def allowanceFor (tokens : List Lexed) : Nat :=
  3 * tokens.length + 3

def expression (tokens : List Lexed) : Outcome Node :=
  expressionWithin (allowanceFor tokens) tokens

def factor (tokens : List Lexed) : Outcome Node :=
  factorWithin (allowanceFor tokens) tokens

end ExprWasm.Phrase
