import ExprWasm.Phrase.Expression

/-! Expressions from tokens by recursive descent, one procedure for each tier of precedence.

This is the grammar read off line by line: an expression is a chain of comparisons, its operands are
chains of additions, theirs are chains of multiplications, and theirs are factors. Every chain is
folded to the left. The procedures return fewer tokens than they were given whenever they accept,
and that is part of their type, so they need no allowance.

The file defines the procedures and gives their equations; that the operator stack reads the same
expressions is proved elsewhere. -/

set_option autoImplicit false

namespace ExprWasm.Phrase

open Token (Kind Lexed)
open ExprWasm.Tree (Node Operator)

namespace Outcome

variable {α β γ : Type}

theorem andThen_assoc
    (outcome : Outcome α) (second : α → List Lexed → Outcome β)
    (third : β → List Lexed → Outcome γ) :
    (outcome.andThen second).andThen third =
      outcome.andThen fun value rest => (second value rest).andThen third := by
  cases outcome <;> rfl

theorem andThen_accepted_right (outcome : Outcome α) : outcome.andThen accepted = outcome := by
  cases outcome <;> rfl

theorem andThen_congr
    {outcome : Outcome α} {second third : α → List Lexed → Outcome β}
    (same : ∀ value rest, outcome = accepted value rest → second value rest = third value rest) :
    outcome.andThen second = outcome.andThen third := by
  cases outcome with
  | accepted value rest => exact same value rest rfl
  | rejected diagnostic rest => rfl
  | interrupted => rfl
  | failed failure => rfl

theorem andThen_eq_accepted
    {outcome : Outcome α} {next : α → List Lexed → Outcome β} {result : β} {left : List Lexed}
    (accepted : outcome.andThen next = .accepted result left) :
    ∃ value rest, outcome = .accepted value rest ∧ next value rest = .accepted result left := by
  cases outcome with
  | accepted value rest => exact ⟨value, rest, rfl, accepted⟩
  | rejected diagnostic rest => cases accepted
  | interrupted => cases accepted
  | failed failure => cases accepted

end Outcome

/-- What reading a phrase came to, with fewer than `bound` tokens left if it was accepted. -/
structure Shrinking (α : Type) (bound : Nat) where
  outcome : Outcome α
  fewer : ∀ value rest, outcome = .accepted value rest → rest.length < bound

namespace Shrinking

variable {α β : Type} {bound wider : Nat}

def accept (value : α) (rest : List Lexed) (fewer : rest.length < bound) : Shrinking α bound where
  outcome := .accepted value rest
  fewer := by
    intro found left same
    cases same
    exact fewer

def reject (diagnostic : Diagnostic) (rest : List Lexed) : Shrinking α bound where
  outcome := .rejected diagnostic rest
  fewer := by
    intro value left same
    cases same

def interrupt : Shrinking α bound where
  outcome := .interrupted
  fewer := by
    intro value left same
    cases same

def fail (failure : Failure) : Shrinking α bound where
  outcome := .failed failure
  fewer := by
    intro value left same
    cases same

def weaken (shrinking : Shrinking α bound) (within : bound ≤ wider) : Shrinking α wider where
  outcome := shrinking.outcome
  fewer value rest accepted := Nat.lt_of_lt_of_le (shrinking.fewer value rest accepted) within

/-- Goes on after a phrase that was accepted; what follows may rely on the bound. -/
def andThen (first : Shrinking α bound)
    (next : (value : α) → (rest : List Lexed) → rest.length < bound → Shrinking β wider) :
    Shrinking β wider :=
  match first with
  | ⟨.accepted value rest, fewer⟩ => next value rest (fewer value rest rfl)
  | ⟨.rejected diagnostic rest, _⟩ => reject diagnostic rest
  | ⟨.interrupted, _⟩ => interrupt
  | ⟨.failed failure, _⟩ => fail failure

/-- Without the bound this is the sequencing of outcomes. -/
theorem outcome_andThen
    (first : Shrinking α bound)
    (next : (value : α) → (rest : List Lexed) → rest.length < bound → Shrinking β wider)
    (plain : α → List Lexed → Outcome β)
    (same : ∀ value rest fewer, (next value rest fewer).outcome = plain value rest) :
    (first.andThen next).outcome = first.outcome.andThen plain := by
  obtain ⟨outcome, fewer⟩ := first
  cases outcome with
  | accepted value rest => exact same value rest (fewer value rest rfl)
  | rejected diagnostic rest => rfl
  | interrupted => rfl
  | failed failure => rfl

end Shrinking

inductive Tier where
  | comparison
  | addition
  | multiplication
  deriving DecidableEq

namespace Tier

def has : Tier → Kind → Bool
  | comparison => Kind.isComparison
  | addition => Kind.isAddition
  | multiplication => Kind.isMultiplication

def height : Tier → Nat
  | comparison => 3
  | addition => 2
  | multiplication => 1

theorem exists_operator {kind : Kind} (tier : Tier) (own : tier.has kind = true) :
    ∃ operator, Operator.ofToken kind = .ok operator := by
  cases tier <;> cases kind <;> first
    | exact ⟨_, rfl⟩
    | cases own

end Tier

namespace Descent

def number (token : Lexed) (rest : List Lexed) : Shrinking Node (rest.length + 1) where
  outcome := numeral token rest
  fewer := by
    intro value left accepted
    unfold numeral at accepted
    split at accepted
    · cases accepted
      exact Nat.lt_succ_self _
    · cases accepted

section Bounds

variable (token : Lexed) {rest after : List Lexed}

theorem nothing_taken (rest : List Lexed) :
    (token :: rest).length < (token :: rest).length + 1 :=
  Nat.lt_succ_self _

theorem one_taken (rest : List Lexed) : rest.length + 1 ≤ (token :: rest).length :=
  Nat.le_refl _

theorem within_cons (fewer : after.length < rest.length) :
    after.length + 1 ≤ (token :: rest).length + 1 := by
  rw [List.length_cons]
  omega

theorem fewer_than_cons (fewer : after.length < rest.length) :
    after.length < (token :: rest).length := by
  rw [List.length_cons]
  omega

theorem fewer_outside {closing : Lexed} (fewer : (closing :: after).length < rest.length) :
    after.length < (token :: rest).length := by
  rw [List.length_cons] at fewer ⊢
  omega

end Bounds

mutual

-- Only the way from an expression down to its first factor takes no token: the tier decreases.

def operand (tier : Tier) (tokens : List Lexed) : Shrinking Node tokens.length :=
  match tier with
  | .comparison => phrase .addition tokens
  | .addition => phrase .multiplication tokens
  | .multiplication => factor tokens
termination_by (tokens.length, 2 * tier.height + 1)
decreasing_by all_goals (apply Prod.Lex.right; decide)

/-- `operand (operator operand)*`: an expression, a subexpression or a term. -/
def phrase (tier : Tier) (tokens : List Lexed) : Shrinking Node tokens.length :=
  (operand tier tokens).andThen fun left rest fewer => (joined tier left rest).weaken fewer
termination_by (tokens.length, 2 * tier.height + 2)

/-- `(operator operand)*`, folded to the left onto the operand before it. -/
def joined (tier : Tier) (left : Node) (tokens : List Lexed) :
    Shrinking Node (tokens.length + 1) :=
  match tokens with
  | [] => .interrupt
  | token :: rest =>
      if tier.has token.kind then
        match Operator.ofToken token.kind with
        | .error failure => .fail failure
        | .ok operator =>
            (operand tier rest).andThen fun right after fewer =>
              (joined tier (.binary operator left right) after).weaken (within_cons token fewer)
      else .accept left (token :: rest) (nothing_taken token rest)
termination_by (tokens.length, 0)

/-- `'-' expression`, a name, a call, `'(' expression ')'`, or a number. -/
def factor (tokens : List Lexed) : Shrinking Node tokens.length :=
  match tokens with
  | [] => .interrupt
  | token :: rest =>
      match token.kind with
      | .identifier => (named token.lexeme rest).weaken (one_taken token rest)
      | .number => number token rest
      | .minus =>
          (phrase .comparison rest).andThen fun node after fewer =>
            .accept (.unary .negate node) after (fewer_than_cons token fewer)
      | .leftParenthesis =>
          (phrase .comparison rest).andThen fun node after fewer =>
            match after with
            | [] => .interrupt
            | closing :: outside =>
                if closing.kind = .rightParenthesis then
                  .accept node outside (fewer_outside token fewer)
                else .reject (Complaint.closingMissing.about closing) (closing :: outside)
      | _ => .reject (Complaint.operandExpected.about token) (token :: rest)
termination_by (tokens.length, 1)

def named (name : String) (tokens : List Lexed) : Shrinking Node (tokens.length + 1) :=
  match tokens with
  | [] => .interrupt
  | token :: rest =>
      if token.kind = .leftParenthesis then
        match rest with
        | [] => .interrupt
        | first :: after =>
            if first.kind = .rightParenthesis then
              .accept (.call name []) after (by simp only [List.length_cons]; omega)
            else
              (arguments name [] (first :: after)).weaken (by simp only [List.length_cons]; omega)
      else .accept (.reference name) (token :: rest) (Nat.lt_succ_self _)
termination_by (tokens.length, 0)

/-- `expression (',' expression)* ')'`, after the arguments in `found`. -/
def arguments (name : String) (found : List Node) (tokens : List Lexed) :
    Shrinking Node tokens.length :=
  (phrase .comparison tokens).andThen fun argument rest fewer =>
    match rest with
    | [] => .interrupt
    | token :: after =>
        if token.kind = .rightParenthesis then
          .accept (.call name (found ++ [argument])) after
            (by simp only [List.length_cons] at fewer; omega)
        else if token.kind = .comma then
          (arguments name (found ++ [argument]) after).weaken
            (by simp only [List.length_cons] at fewer; omega)
        else .reject (Complaint.argumentEndExpected.about token) (token :: after)
termination_by (tokens.length, 2 * Tier.comparison.height + 3)
decreasing_by
  · exact Prod.Lex.right _ (Nat.lt_succ_self _)
  · exact Prod.Lex.left _ _ (Nat.lt_trans (Nat.lt_succ_self _) fewer)

end

def expression (tokens : List Lexed) : Outcome Node :=
  (phrase .comparison tokens).outcome

/-! ### Equations without bounds -/

theorem outcome_phrase (tier : Tier) (tokens : List Lexed) :
    (phrase tier tokens).outcome =
      (operand tier tokens).outcome.andThen fun left rest => (joined tier left rest).outcome := by
  rw [phrase]
  exact Shrinking.outcome_andThen _ _ _ fun _ _ _ => rfl

theorem outcome_operand_comparison (tokens : List Lexed) :
    (operand .comparison tokens).outcome = (phrase .addition tokens).outcome := by
  rw [operand]

theorem outcome_operand_addition (tokens : List Lexed) :
    (operand .addition tokens).outcome = (phrase .multiplication tokens).outcome := by
  rw [operand]

theorem outcome_operand_multiplication (tokens : List Lexed) :
    (operand .multiplication tokens).outcome = (factor tokens).outcome := by
  rw [operand]

theorem outcome_joined_of_not_has
    {tier : Tier} {token : Lexed} (foreign : tier.has token.kind = false)
    (left : Node) (rest : List Lexed) :
    (joined tier left (token :: rest)).outcome = .accepted left (token :: rest) := by
  rw [joined]
  simp only [foreign]
  rfl

theorem outcome_joined_of_has
    {tier : Tier} {token : Lexed} {operator : Operator}
    (own : tier.has token.kind = true) (meant : Operator.ofToken token.kind = .ok operator)
    (left : Node) (rest : List Lexed) :
    (joined tier left (token :: rest)).outcome =
      (operand tier rest).outcome.andThen fun right after =>
        (joined tier (.binary operator left right) after).outcome := by
  rw [joined]
  simp only [own, meant, if_true]
  exact Shrinking.outcome_andThen _ _ _ fun _ _ _ => rfl

theorem outcome_factor_nil : (factor []).outcome = .interrupted := by
  rw [factor]
  rfl

theorem outcome_factor_cons (token : Lexed) (rest : List Lexed) :
    (factor (token :: rest)).outcome =
      match token.kind with
      | .identifier => (named token.lexeme rest).outcome
      | .number => numeral token rest
      | .minus =>
          (expression rest).andThen fun node after => .accepted (.unary .negate node) after
      | .leftParenthesis =>
          (expression rest).andThen fun node after =>
            (expect .rightParenthesis .closingMissing after).andThen fun _ outside =>
              .accepted node outside
      | _ => .rejected (Complaint.operandExpected.about token) (token :: rest) := by
  rw [factor]
  split
  · rfl
  · rfl
  · exact Shrinking.outcome_andThen _ _ _ fun _ _ _ => rfl
  · refine Shrinking.outcome_andThen _ _ _ ?_
    intro node after fewer
    cases after with
    | nil => rfl
    | cons closing outside =>
        by_cases closed : closing.kind = .rightParenthesis
        · simp only [closed, if_true, expect, Outcome.andThen_accepted]
          rfl
        · simp only [closed, if_false, expect, Outcome.andThen_rejected]
          rfl
  · rfl

theorem outcome_named (name : String) (tokens : List Lexed) :
    (named name tokens).outcome =
      match tokens with
      | [] => .interrupted
      | token :: rest =>
          if token.kind = .leftParenthesis then
            match rest with
            | [] => .interrupted
            | first :: after =>
                if first.kind = .rightParenthesis then .accepted (.call name []) after
                else (arguments name [] (first :: after)).outcome
          else .accepted (.reference name) (token :: rest) := by
  cases tokens with
  | nil =>
      rw [named]
      rfl
  | cons token rest =>
      by_cases opened : token.kind = .leftParenthesis
      · cases rest with
        | nil =>
            rw [named]
            simp only [if_pos opened]
            rfl
        | cons first after =>
            rw [named]
            simp only [if_pos opened]
            by_cases closed : first.kind = .rightParenthesis
            · simp only [if_pos closed]
              rfl
            · simp only [if_neg closed]
              rfl
      · rw [named.eq_def]
        simp only [if_neg opened]
        rfl

theorem outcome_arguments (name : String) (found : List Node) (tokens : List Lexed) :
    (arguments name found tokens).outcome =
      (expression tokens).andThen fun argument rest =>
        match rest with
        | [] => .interrupted
        | token :: after =>
            if token.kind = .rightParenthesis then
              .accepted (.call name (found ++ [argument])) after
            else if token.kind = .comma then (arguments name (found ++ [argument]) after).outcome
            else .rejected (Complaint.argumentEndExpected.about token) (token :: after) := by
  rw [arguments]
  refine Shrinking.outcome_andThen _ _ _ ?_
  intro argument rest fewer
  cases rest with
  | nil => rfl
  | cons token after =>
      by_cases closed : token.kind = .rightParenthesis
      · simp only [if_pos closed]
        rfl
      · by_cases parted : token.kind = .comma
        · simp only [if_neg closed, if_pos parted]
          rfl
        · simp only [if_neg closed, if_neg parted]
          rfl

end Descent

end ExprWasm.Phrase
