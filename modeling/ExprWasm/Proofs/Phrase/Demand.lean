import ExprWasm.Phrase.Program
import ExprWasm.Proofs.Phrase.Plan

/-! Programs read with tokens on demand.

The parser of this module asks its lexer for one token after the other. It sees no token but the
last one, takes the line and the text of that from the lexer, and keeps a record of all that it has
drawn. Every diagnostic is noted with the tokens drawn up to then. -/

set_option autoImplicit false

namespace ExprWasm.Phrase

open Token (Kind Lexed Lexer)
open ExprWasm.Tree (Node Operator Prototype Function)

structure Note where
  diagnostic : Diagnostic
  drawn : List Lexed

/-- A parser that holds one token. Of the tokens, functions and notes the latest come first. -/
structure Intake where
  lexer : Lexer
  token : Kind := .noToken
  drawn : List Lexed := []
  functions : List Function := []
  notes : List Note := []

inductive Drawn (α : Type) where
  | found (value : α) (intake : Intake)
  /-- The phrase is not there, and a note says why. -/
  | missing (intake : Intake)
  | stopped (failure : Failure) (intake : Intake)
  /-- The allowance did not suffice. -/
  | exhausted

namespace Drawn

variable {α β : Type}

def andThen (drawn : Drawn α) (continuation : α → Intake → Drawn β) : Drawn β :=
  match drawn with
  | found value intake => continuation value intake
  | missing intake => missing intake
  | stopped failure intake => stopped failure intake
  | exhausted => exhausted

def intake? : Drawn α → Option Intake
  | found _ intake => some intake
  | missing intake => some intake
  | stopped _ intake => some intake
  | exhausted => none

theorem andThen_assoc
    {γ : Type} (drawn : Drawn α) (second : α → Intake → Drawn β) (third : β → Intake → Drawn γ) :
    (drawn.andThen second).andThen third =
      drawn.andThen fun value intake => (second value intake).andThen third := by
  cases drawn with
  | found value intake => rfl
  | missing intake => rfl
  | stopped failure intake => rfl
  | exhausted => rfl

end Drawn

namespace Intake

def lookahead (intake : Intake) : Lexed :=
  intake.lexer.lexed intake.token

def draw (intake : Intake) : Drawn Unit :=
  match intake.lexer.next with
  | (.ok kind, after) =>
      .found ()
        { intake with lexer := after, token := kind, drawn := after.lexed kind :: intake.drawn }
  | (.error failure, after) => .stopped failure { intake with lexer := after }

def note (intake : Intake) (complaint : Complaint) : Intake :=
  { intake with notes := ⟨complaint.about intake.lookahead, intake.drawn⟩ :: intake.notes }

def demand (intake : Intake) (kind : Kind) (complaint : Complaint) : Drawn Lexed :=
  if intake.token = kind then
    intake.draw.andThen fun _ after => .found intake.lookahead after
  else .missing (intake.note complaint)

def numeral (intake : Intake) : Drawn Node :=
  match Number.Decimal.read? intake.lexer.lexeme.toList with
  | some decimal => intake.draw.andThen fun _ after => .found (.number decimal.toBinary64) after
  | none => .stopped (.notANumber intake.lexer.lexeme) intake

/-! The phrases follow the readings of a list, procedure by procedure. -/

mutual

def expression : (allowance : Nat) → Intake → Drawn Node
  | 0, _ => .exhausted
  | allowance + 1, intake =>
      (factor allowance intake).andThen fun operand intake => chain allowance [operand] [] intake

def chain : (allowance : Nat) → List Node → List Waiting → Intake → Drawn Node
  | 0, _, _, _ => .exhausted
  | allowance + 1, operands, waiting, intake =>
      let precedence := intake.token.precedence
      match reduceFrom precedence operands waiting with
      | .error failure => .stopped failure intake
      | .ok (operands, waiting) =>
          if precedence = 0 then
            match operands with
            | [node] => .found node intake
            | _ => .stopped .emptyStack intake
          else
            match Operator.ofToken intake.token with
            | .error failure => .stopped failure intake
            | .ok operator =>
                intake.draw.andThen fun _ intake =>
                  (factor allowance intake).andThen fun operand intake =>
                    chain allowance (operand :: operands) (⟨precedence, operator⟩ :: waiting) intake

def factor : (allowance : Nat) → Intake → Drawn Node
  | 0, _ => .exhausted
  | allowance + 1, intake =>
      match intake.token with
      | .identifier =>
          intake.draw.andThen fun _ after => name allowance intake.lexer.lexeme after
      | .number => intake.numeral
      | .minus =>
          intake.draw.andThen fun _ intake =>
            (expression allowance intake).andThen fun operand intake =>
              .found (.unary .negate operand) intake
      | .leftParenthesis =>
          intake.draw.andThen fun _ intake =>
            (expression allowance intake).andThen fun node intake =>
              (intake.demand .rightParenthesis .closingMissing).andThen fun _ intake =>
                .found node intake
      | _ => .missing (intake.note .operandExpected)

def name : (allowance : Nat) → String → Intake → Drawn Node
  | 0, _, _ => .exhausted
  | allowance + 1, callee, intake =>
      if intake.token = .leftParenthesis then
        intake.draw.andThen fun _ intake =>
          if intake.token = .rightParenthesis then
            intake.draw.andThen fun _ intake => .found (.call callee []) intake
          else arguments allowance callee [] intake
      else .found (.reference callee) intake

def arguments : (allowance : Nat) → String → List Node → Intake → Drawn Node
  | 0, _, _, _ => .exhausted
  | allowance + 1, callee, found, intake =>
      (expression allowance intake).andThen fun argument intake =>
        if intake.token = .rightParenthesis then
          intake.draw.andThen fun _ intake => .found (.call callee (argument :: found).reverse) intake
        else if intake.token = .comma then
          intake.draw.andThen fun _ intake => arguments allowance callee (argument :: found) intake
        else .missing (intake.note .argumentEndExpected)

end

def names : (allowance : Nat) → List String → Intake → Drawn (List String)
  | 0, _, _ => .exhausted
  | allowance + 1, found, intake =>
      if intake.token = .identifier then
        intake.draw.andThen fun _ after => names allowance (intake.lexer.lexeme :: found) after
      else .found found.reverse intake

def prototype (allowance : Nat) (intake : Intake) : Drawn Prototype :=
  (intake.demand .identifier .nameExpected).andThen fun name intake =>
    (intake.demand .leftParenthesis .openingExpected).andThen fun _ intake =>
      (intake.names allowance []).andThen fun parameters intake =>
        (intake.demand .rightParenthesis .closingExpected).andThen fun _ intake =>
          .found ⟨name.lexeme, parameters⟩ intake

def conditional (allowance : Nat) (intake : Intake) : Drawn Node :=
  (intake.expression allowance).andThen fun condition intake =>
    (intake.demand .thenWord .thenExpected).andThen fun _ intake =>
      (intake.expression allowance).andThen fun whenTrue intake =>
        (intake.demand .elseWord .elseExpected).andThen fun _ intake =>
          (intake.expression allowance).andThen fun whenFalse intake =>
            .found (.conditional condition whenTrue whenFalse) intake

def body (allowance : Nat) (intake : Intake) : Drawn Node :=
  if intake.token = .ifWord then intake.draw.andThen fun _ intake => intake.conditional allowance
  else intake.expression allowance

def definition (allowance : Nat) (intake : Intake) : Drawn Function :=
  (intake.prototype allowance).andThen fun head intake =>
    (intake.body allowance).andThen fun body intake => .found ⟨head, body⟩ intake

def skip : (allowance : Nat) → Intake → Drawn Unit
  | 0, _ => .exhausted
  | allowance + 1, intake =>
      if isBoundary intake.token then .found () intake
      else intake.draw.andThen fun _ intake => skip allowance intake

def item (allowance : Nat) (intake : Intake) : Drawn Unit :=
  if intake.token = .define then
    match intake.draw.andThen fun _ intake => intake.definition allowance with
    | .found function intake => .found () { intake with functions := function :: intake.functions }
    | .missing intake => intake.skip allowance
    | .stopped failure intake => .stopped failure intake
    | .exhausted => .exhausted
  else (intake.note .definitionExpected).skip allowance

def terminator (intake : Intake) : Drawn Unit :=
  if intake.token = .semicolon then intake.draw
  else .found () (intake.note .semicolonMissing)

def program (allowance : Nat) : (items : Nat) → Intake → Drawn Unit
  | 0, _ => .exhausted
  | items + 1, intake =>
      if intake.token = .endOfInput then .found () intake
      else
        (intake.item allowance).andThen fun _ intake =>
          intake.terminator.andThen fun _ intake => program allowance items intake

def parse (allowance : Nat) (intake : Intake) : Drawn Unit :=
  intake.draw.andThen fun _ intake => intake.program allowance allowance

end Intake

namespace Parser

/-- Reads the rest of the source on demand, with an allowance for all that can still be read. -/
def parseOnDemand (parser : Parser) : Drawn Unit :=
  Intake.parse (3 * parser.lexer.remaining + 6)
    { lexer := parser.lexer, token := parser.token, functions := parser.functions.reverse }

end Parser

/-! ### Plans -/

theorem Drawn.andThen_found_right {α : Type} (drawn : Drawn α) :
    (drawn.andThen fun value intake => .found value intake) = drawn := by
  cases drawn <;> rfl

namespace Plan

def draw (calls : Call → Intake → Drawn Node) : Plan → Intake → Drawn Node
  | accept node, intake => .found node intake
  | reject complaint, intake => .missing (intake.note complaint)
  | fail failure, intake => .stopped failure intake
  | look next, intake => (next intake.token intake.lexer.lexeme).draw calls intake
  | take next, intake => intake.draw.andThen fun _ intake => next.draw calls intake
  | call first next, intake =>
      (calls first intake).andThen fun node intake => (next node).draw calls intake

theorem draw_expect
    (calls : Call → Intake → Drawn Node) (kind : Kind) (complaint : Complaint) (next : Plan)
    (intake : Intake) :
    (expect kind complaint next).draw calls intake =
      (intake.demand kind complaint).andThen fun _ intake => next.draw calls intake := by
  rw [expect, draw, Intake.demand]
  split
  · rw [draw, Drawn.andThen_assoc]
    rfl
  · rfl

end Plan

namespace Call

def onDemand (allowance : Nat) : Call → Intake → Drawn Node
  | expression => Intake.expression allowance
  | chain operands waiting => Intake.chain allowance operands waiting
  | factor => Intake.factor allowance
  | name callee => Intake.name allowance callee
  | arguments callee found => Intake.arguments allowance callee found

theorem onDemand_zero (call : Call) (intake : Intake) : call.onDemand 0 intake = .exhausted := by
  cases call <;> rfl

theorem onDemand_succ (allowance : Nat) (call : Call) (intake : Intake) :
    call.onDemand (allowance + 1) intake = call.plan.draw (onDemand allowance) intake := by
  cases call with
  | expression =>
      rw [onDemand, Intake.expression, plan, Plan.draw]
      simp only [Plan.draw, Drawn.andThen_found_right, onDemand]
  | chain operands waiting =>
      rw [onDemand, Intake.chain, plan, Plan.draw]
      cases reduceFrom intake.token.precedence operands waiting with
      | error failure => rfl
      | ok reduced =>
          obtain ⟨operands, waiting⟩ := reduced
          simp only
          split
          · cases operands with
            | nil => rfl
            | cons node below => cases below <;> rfl
          · cases Operator.ofToken intake.token with
            | error failure => rfl
            | ok operator => simp only [Plan.draw, Drawn.andThen_found_right, onDemand]
  | factor =>
      rw [onDemand, Intake.factor, plan, Plan.draw]
      cases intake.token
      case identifier => simp only [Plan.draw, Drawn.andThen_found_right, onDemand]
      case number =>
          rw [Intake.numeral]
          cases Number.Decimal.read? intake.lexer.lexeme.toList <;> rfl
      case leftParenthesis => simp only [Plan.draw, Plan.draw_expect, onDemand]
      all_goals rfl
  | name callee =>
      rw [onDemand, Intake.name, plan, Plan.draw]
      split
      · simp only [Plan.draw]
        congr
        funext _ intake
        split
        · rfl
        · simp only [Plan.draw, Drawn.andThen_found_right, onDemand]
      · rfl
  | arguments callee found =>
      rw [onDemand, Intake.arguments, plan, Plan.draw]
      simp only [Plan.draw]
      congr
      funext argument intake
      split
      · rfl
      · split
        · simp only [Plan.draw, Drawn.andThen_found_right, onDemand]
        · rfl

end Call

theorem Intake.conditional_eq_draw (allowance : Nat) (intake : Intake) :
    intake.conditional allowance = Plan.conditional.draw (Call.onDemand allowance) intake := by
  simp only [Intake.conditional, Plan.conditional, Plan.draw, Plan.draw_expect, Call.onDemand]

theorem Intake.body_eq_draw (allowance : Nat) (intake : Intake) :
    intake.body allowance = Plan.body.draw (Call.onDemand allowance) intake := by
  rw [Intake.body, Plan.body, Plan.draw]
  split
  · simp only [Intake.conditional_eq_draw]
    rfl
  · exact (Drawn.andThen_found_right _).symm

end ExprWasm.Phrase
