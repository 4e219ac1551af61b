import ExprWasm.Phrase.Definition
import ExprWasm.Proofs.Phrase.Descent

/-! The procedures for expressions as plans.

A procedure looks at tokens and takes them, calls procedures, and in the end accepts, rejects or
fails. Its plan says which of these steps come when. Plans can be followed in a list of tokens or in
another way, and what every step keeps is kept by all the procedures (`Call.within_of_step`). So a
property of the procedures is proved step by step, and the plans themselves are gone through only
where it matters which steps they have. -/

set_option autoImplicit false

namespace ExprWasm.Phrase

open Token (Kind Lexed)
open ExprWasm.Tree (Node Operator)

inductive Call where
  | expression
  | chain (operands : List Node) (waiting : List Waiting)
  | factor
  | name (callee : String)
  | arguments (callee : String) (found : List Node)

inductive Plan where
  | accept (node : Node)
  | reject (complaint : Complaint)
  | fail (failure : Failure)
  | look (next : Kind → String → Plan)
  | take (next : Plan)
  | call (first : Call) (next : Node → Plan)

namespace Plan

def expect (kind : Kind) (complaint : Complaint) (next : Plan) : Plan :=
  .look fun found _ => if found = kind then .take next else .reject complaint

def conditional : Plan :=
  .call .expression fun condition =>
    expect .thenWord .thenExpected (.call .expression fun whenTrue =>
      expect .elseWord .elseExpected (.call .expression fun whenFalse =>
        .accept (.conditional condition whenTrue whenFalse)))

def body : Plan :=
  .look fun kind _ => if kind = .ifWord then .take conditional else .call .expression .accept

/-- What a plan comes to in a list of tokens, given what the calls come to. -/
def run (calls : Call → List Lexed → Outcome Node) : Plan → List Lexed → Outcome Node
  | accept node, tokens => .accepted node tokens
  | reject _, [] => .interrupted
  | reject complaint, token :: rest => .rejected (complaint.about token) (token :: rest)
  | fail _, [] => .interrupted
  | fail failure, _ :: _ => .failed failure
  | look _, [] => .interrupted
  | look next, token :: rest => (next token.kind token.lexeme).run calls (token :: rest)
  | take _, [] => .interrupted
  | take next, _ :: rest => next.run calls rest
  | call first next, tokens =>
      (calls first tokens).andThen fun node rest => (next node).run calls rest

theorem run_expect
    (calls : Call → List Lexed → Outcome Node) (kind : Kind) (complaint : Complaint) (next : Plan)
    (tokens : List Lexed) :
    (Plan.expect kind complaint next).run calls tokens =
      (Phrase.expect kind complaint tokens).andThen fun _ rest => next.run calls rest := by
  cases tokens with
  | nil => rfl
  | cons token rest =>
      rw [Plan.expect, run, Phrase.expect]
      split <;> rfl

end Plan

namespace Call

def plan : Call → Plan
  | expression => .call factor fun operand => .call (chain [operand] []) .accept
  | chain operands waiting =>
      .look fun kind _ =>
        match reduceFrom kind.precedence operands waiting with
        | .error failure => .fail failure
        | .ok (operands, waiting) =>
            if kind.precedence = 0 then
              match operands with
              | [node] => .accept node
              | _ => .fail .emptyStack
            else
              match Operator.ofToken kind with
              | .error failure => .fail failure
              | .ok operator =>
                  .take (.call factor fun operand =>
                    .call (chain (operand :: operands) (⟨kind.precedence, operator⟩ :: waiting))
                      .accept)
  | factor =>
      .look fun kind lexeme =>
        match kind with
        | .identifier => .take (.call (name lexeme) .accept)
        | .number =>
            match Number.Decimal.read? lexeme.toList with
            | some decimal => .take (.accept (.number decimal.toBinary64))
            | none => .fail (.notANumber lexeme)
        | .minus => .take (.call expression fun operand => .accept (.unary .negate operand))
        | .leftParenthesis =>
            .take (.call expression fun node =>
              .expect .rightParenthesis .closingMissing (.accept node))
        | _ => .reject .operandExpected
  | name callee =>
      .look fun kind _ =>
        if kind = .leftParenthesis then
          .take (.look fun kind _ =>
            if kind = .rightParenthesis then .take (.accept (.call callee []))
            else .call (arguments callee []) .accept)
        else .accept (.reference callee)
  | arguments callee found =>
      .call expression fun argument => .look fun kind _ =>
        if kind = .rightParenthesis then
          .take (.accept (.call callee (argument :: found).reverse))
        else if kind = .comma then .take (.call (arguments callee (argument :: found)) .accept)
        else .reject .argumentEndExpected

def within (allowance : Nat) : Call → List Lexed → Outcome Node
  | expression => expressionWithin allowance
  | chain operands waiting => chainWithin allowance operands waiting
  | factor => factorWithin allowance
  | name callee => nameWithin allowance callee
  | arguments callee found => argumentsWithin allowance callee found

theorem within_zero (call : Call) (tokens : List Lexed) : call.within 0 tokens = .interrupted := by
  cases call <;> rfl

/-- The procedures follow their plans, and call with a smaller allowance. -/
theorem within_succ (allowance : Nat) (call : Call) (tokens : List Lexed) :
    call.within (allowance + 1) tokens = call.plan.run (within allowance) tokens := by
  have last (outcome : Outcome Node) :
      (outcome.andThen fun node rest => .accepted node rest) = outcome :=
    outcome.andThen_accepted_right
  cases call with
  | expression =>
      rw [within, expressionWithin, plan, Plan.run]
      simp only [Plan.run, last, within]
  | chain operands waiting =>
      cases tokens with
      | nil => rfl
      | cons token rest =>
          rw [within, chainWithin, plan, Plan.run]
          cases reduceFrom token.kind.precedence operands waiting with
          | error failure => rfl
          | ok reduced =>
              obtain ⟨operands, waiting⟩ := reduced
              simp only
              split
              · cases operands with
                | nil => rfl
                | cons node below => cases below <;> rfl
              · cases Operator.ofToken token.kind with
                | error failure => rfl
                | ok operator => simp only [Plan.run, last, within]
  | factor =>
      cases tokens with
      | nil => rfl
      | cons token rest =>
          rw [within, factorWithin, plan, Plan.run]
          cases token.kind
          case identifier => simp only [Plan.run, last, within]
          case number =>
              rw [numeral]
              cases Number.Decimal.read? token.lexeme.toList <;> rfl
          case leftParenthesis => simp only [Plan.run, Plan.run_expect, within]
          all_goals rfl
  | name callee =>
      cases tokens with
      | nil => rfl
      | cons token rest =>
          rw [within, nameWithin.eq_def, plan, Plan.run]
          simp only
          split
          · cases rest with
            | nil => rfl
            | cons first after =>
                simp only [Plan.run]
                split
                · rfl
                · simp only [Plan.run, last, within]
          · rfl
  | arguments callee found =>
      rw [within, argumentsWithin, plan, Plan.run]
      apply Outcome.andThen_congr
      intro argument rest _
      cases rest with
      | nil => rfl
      | cons token after =>
          simp only [Plan.run]
          split
          · rfl
          · split
            · simp only [Plan.run, last, within]
            · rfl

/-- What each plan keeps if the calls keep it is kept by the procedures with every allowance. -/
theorem within_of_step
    {Kept : Call → (List Lexed → Outcome Node) → Prop}
    (start : ∀ call, Kept call fun _ => .interrupted)
    (step : ∀ calls : Call → List Lexed → Outcome Node, (∀ call, Kept call (calls call)) →
      ∀ call, Kept call (call.plan.run calls))
    (allowance : Nat) (call : Call) : Kept call (call.within allowance) := by
  induction allowance generalizing call with
  | zero =>
      rw [funext call.within_zero]
      exact start call
  | succ allowance inductionHypothesis =>
      rw [funext (within_succ allowance call)]
      exact step _ inductionHypothesis call

end Call

theorem conditionalWithin_eq_run (allowance : Nat) (tokens : List Lexed) :
    conditionalWithin allowance tokens = Plan.conditional.run (Call.within allowance) tokens := by
  simp only [conditionalWithin, Plan.conditional, Plan.run, Plan.run_expect, Call.within]

theorem bodyWithin_eq_run (allowance : Nat) (tokens : List Lexed) :
    bodyWithin allowance tokens = Plan.body.run (Call.within allowance) tokens := by
  cases tokens with
  | nil => rfl
  | cons token rest =>
      rw [bodyWithin, Plan.body, Plan.run]
      split
      · exact conditionalWithin_eq_run allowance rest
      · exact (Outcome.andThen_accepted_right _).symm

/-! ### What is left -/

def Leaves (tokens rest : List Lexed) : Prop :=
  ∃ token after, tokens = token :: after ∧ rest <:+ after

namespace Leaves

variable {tokens middle rest : List Lexed}

theorem trans (leaves : Leaves tokens middle) (suffix : rest <:+ middle) : Leaves tokens rest := by
  obtain ⟨token, after, split, earlier⟩ := leaves
  exact ⟨token, after, split, suffix.trans earlier⟩

theorem within (leaves : Leaves middle rest) (suffix : middle <:+ tokens) : Leaves tokens rest := by
  obtain ⟨token, after, rfl, later⟩ := leaves
  obtain ⟨seen, rfl⟩ := suffix
  cases seen with
  | nil => exact ⟨token, after, rfl, later⟩
  | cons first seen =>
      exact ⟨first, seen ++ token :: after, rfl, later.trans
        ((List.suffix_cons token after).trans (List.suffix_append seen _))⟩

theorem length_lt (leaves : Leaves tokens rest) : rest.length < tokens.length := by
  obtain ⟨token, after, rfl, suffix⟩ := leaves
  exact Nat.lt_succ_of_le suffix.length_le

end Leaves

def Outcome.Yields {α : Type} (property : α → List Lexed → Prop) : Outcome α → Prop
  | .accepted value rest => property value rest
  | _ => True

namespace Outcome.Yields

variable {α β : Type} {property : α → List Lexed → Prop}

theorem of_eq
    {outcome : Outcome α} (yields : outcome.Yields property) {value : α} {rest : List Lexed}
    (accepted : outcome = .accepted value rest) : property value rest := by
  subst accepted
  exact yields

theorem andThen
    {result : β → List Lexed → Prop} {outcome : Outcome α} {next : α → List Lexed → Outcome β}
    (yields : outcome.Yields property)
    (later : ∀ value rest, property value rest → (next value rest).Yields result) :
    (outcome.andThen next).Yields result := by
  cases outcome with
  | accepted value rest => exact later value rest yields
  | rejected diagnostic rest => trivial
  | interrupted => trivial
  | failed failure => trivial

theorem imp
    {weaker : α → List Lexed → Prop} {outcome : Outcome α} (yields : outcome.Yields property)
    (implied : ∀ value rest, property value rest → weaker value rest) : outcome.Yields weaker := by
  cases outcome with
  | accepted value rest => exact implied value rest yields
  | rejected diagnostic rest => trivial
  | interrupted => trivial
  | failed failure => trivial

end Outcome.Yields

/-- What is left after an accepted phrase is part of the tokens, and not all of them if the phrase
must have one. -/
def Outcome.Advances {α : Type} (must : Prop) (tokens : List Lexed) (outcome : Outcome α) : Prop :=
  outcome.Yields fun _ rest => rest <:+ tokens ∧ (must → Leaves tokens rest)

def Call.takes : Call → Bool
  | chain _ _ => false
  | name _ => false
  | _ => true

/-- A plan that accepts nothing without taking a token. -/
def Plan.Takes : Plan → Prop
  | accept _ => False
  | reject _ => True
  | fail _ => True
  | look next => ∀ kind lexeme, (next kind lexeme).Takes
  | take _ => True
  | call first next => first.takes = true ∨ ∀ node, (next node).Takes

theorem Call.plan_takes {call : Call} (takes : call.takes = true) : call.plan.Takes := by
  cases call with
  | expression => exact .inl rfl
  | chain operands waiting => cases takes
  | factor =>
      intro kind lexeme
      cases kind
      case number =>
          simp only
          split <;> trivial
      all_goals trivial
  | name callee => cases takes
  | arguments callee found => exact .inl rfl

theorem Plan.run_advances
    {calls : Call → List Lexed → Outcome Node}
    (advance : ∀ call tokens, (calls call tokens).Advances (call.takes = true) tokens)
    (plan : Plan) (tokens : List Lexed) : (plan.run calls tokens).Advances plan.Takes tokens := by
  induction plan generalizing tokens with
  | accept node => exact ⟨List.suffix_refl _, False.elim⟩
  | reject complaint => cases tokens <;> trivial
  | fail failure => cases tokens <;> trivial
  | look next inductionHypothesis =>
      cases tokens with
      | nil => trivial
      | cons token rest =>
          apply (inductionHypothesis token.kind token.lexeme (token :: rest)).imp
          rintro node left ⟨suffix, leaves⟩
          exact ⟨suffix, fun takes => leaves (takes token.kind token.lexeme)⟩
  | take next inductionHypothesis =>
      cases tokens with
      | nil => trivial
      | cons token rest =>
          apply (inductionHypothesis rest).imp
          rintro node left ⟨suffix, _⟩
          exact ⟨suffix.trans (List.suffix_cons token rest), fun _ => ⟨token, rest, rfl, suffix⟩⟩
  | call first next inductionHypothesis =>
      apply (advance first tokens).andThen
      rintro node rest ⟨suffix, leaves⟩
      apply (inductionHypothesis node rest).imp
      rintro result left ⟨suffixLeft, leavesLeft⟩
      refine ⟨suffixLeft.trans suffix, fun takes => ?_⟩
      rcases takes with takes | takes
      · exact (leaves takes).trans suffixLeft
      · exact (leavesLeft (takes node)).within suffix

theorem Call.within_advances (allowance : Nat) (call : Call) (tokens : List Lexed) :
    (call.within allowance tokens).Advances (call.takes = true) tokens := by
  refine @within_of_step
    (fun call reads => ∀ tokens, (reads tokens).Advances (call.takes = true) tokens)
    (fun _ _ => trivial) ?_ allowance call tokens
  intro calls advance call tokens
  apply (call.plan.run_advances advance tokens).imp
  rintro node rest ⟨suffix, leaves⟩
  exact ⟨suffix, fun takes => leaves (plan_takes takes)⟩

/-! ### What is called -/

namespace Plan

/-- All calls of a plan are of a certain kind, if the plan is followed with `count` tokens ahead. -/
def Calls (allowed : Call → (count : Nat) → Prop) : Plan → (count : Nat) → Prop
  | accept _, _ => True
  | reject _, _ => True
  | fail _, _ => True
  | look next, count => ∀ kind lexeme, (next kind lexeme).Calls allowed count
  | take next, count => ∀ left, left < count → next.Calls allowed left
  | call first next, count =>
      allowed first count ∧
        ∀ node left, left ≤ count → (first.takes = true → left < count) →
          (next node).Calls allowed left

variable {allowed needed : Call → Nat → Prop} {calls others : Call → List Lexed → Outcome Node}

theorem Calls.imp
    {plan : Plan} {count : Nat} (allows : plan.Calls allowed count)
    (implied : ∀ call left, allowed call left → needed call left) : plan.Calls needed count := by
  induction plan generalizing count with
  | accept node => trivial
  | reject complaint => trivial
  | fail failure => trivial
  | look next inductionHypothesis =>
      exact fun kind lexeme => inductionHypothesis kind lexeme (allows kind lexeme)
  | take next inductionHypothesis =>
      exact fun left fewer => inductionHypothesis (allows left fewer)
  | call first next inductionHypothesis =>
      refine ⟨implied first count allows.1, fun node left within fewer => ?_⟩
      exact inductionHypothesis node (allows.2 node left within fewer)

theorem calls_expect
    {count : Nat} {next : Plan} (kind : Kind) (complaint : Complaint)
    (later : ∀ left, left < count → next.Calls allowed left) :
    (expect kind complaint next).Calls allowed count := by
  intro found lexeme
  simp only
  split
  · exact later
  · trivial

/-- What a plan comes to depends only on what its calls come to. -/
theorem run_congr
    (same : ∀ call tokens, allowed call tokens.length → calls call tokens = others call tokens)
    (advance : ∀ call tokens, (calls call tokens).Advances (call.takes = true) tokens)
    {plan : Plan} {tokens : List Lexed} (allows : plan.Calls allowed tokens.length) :
    plan.run calls tokens = plan.run others tokens := by
  induction plan generalizing tokens with
  | accept node => rfl
  | reject complaint => cases tokens <;> rfl
  | fail failure => cases tokens <;> rfl
  | look next inductionHypothesis =>
      cases tokens with
      | nil => rfl
      | cons token rest =>
          exact inductionHypothesis token.kind token.lexeme (allows token.kind token.lexeme)
  | take next inductionHypothesis =>
      cases tokens with
      | nil => rfl
      | cons token rest => exact inductionHypothesis (allows rest.length (Nat.lt_succ_self _))
  | call first next inductionHypothesis =>
      obtain ⟨isAllowed, later⟩ := allows
      rw [run, run, ← same first tokens isAllowed]
      apply Outcome.andThen_congr
      intro node rest accepted
      obtain ⟨suffix, leaves⟩ := (advance first tokens).of_eq accepted
      exact inductionHypothesis node
        (later node rest.length suffix.length_le fun takes => (leaves takes).length_lt)

end Plan

end ExprWasm.Phrase
