import ExprWasm.Proofs.Phrase.Decided
import ExprWasm.Proofs.Phrase.Plan

/-! The operator stack reads the expressions of the three tiers.

The loop over a chain keeps an operand that is being built and, below it, operators that wait for
their right operands, each with its left operand. The invariant is that the tiers of the waiting
operators are a sublist of the three tiers from the tightest on, so that each tier waits at most
once and the tighter are on top. Such a stack says which procedures of the recursive descent are
open; `resume` is what they have still to do. -/

set_option autoImplicit false

namespace ExprWasm.Phrase

open Token (Kind Lexed)
open ExprWasm.Tree (Node Operator)

namespace Tier

def precedence : Tier → Nat
  | comparison => 1
  | addition => 2
  | multiplication => 3

def all : List Tier :=
  [multiplication, addition, comparison]

theorem has_eq_true_iff (tier : Tier) (kind : Kind) :
    tier.has kind = true ↔ kind.precedence = tier.precedence := by
  cases tier <;> cases kind <;> decide

theorem has_eq_false_iff (tier : Tier) (kind : Kind) :
    tier.has kind = false ↔ kind.precedence ≠ tier.precedence := by
  rw [← Bool.not_eq_true, has_eq_true_iff]

theorem precedence_pos (tier : Tier) : 0 < tier.precedence := by
  cases tier <;> decide

/-- A kind that binds at all has a tier and stands for an operator. -/
theorem exists_of_precedence_ne_zero {kind : Kind} (binds : kind.precedence ≠ 0) :
    ∃ tier operator, kind.precedence = precedence tier ∧ Operator.ofToken kind = .ok operator := by
  cases kind <;> first
    | exact absurd rfl binds
    | exact ⟨multiplication, _, rfl, rfl⟩
    | exact ⟨addition, _, rfl, rfl⟩
    | exact ⟨comparison, _, rfl, rfl⟩

end Tier

structure Pending where
  tier : Tier
  operator : Operator
  left : Node

namespace Pending

def waiting (pending : Pending) : Waiting :=
  ⟨pending.tier.precedence, pending.operator⟩

def join (pending : Pending) (right : Node) : Node :=
  .binary pending.operator pending.left right

def unwind (precedence : Nat) : Node → List Pending → Node × List Pending
  | current, [] => (current, [])
  | current, top :: stack =>
      if precedence ≤ top.tier.precedence then unwind precedence (top.join current) stack
      else (current, top :: stack)

def absorb (tier : Tier) (current : Node) : List Pending → Node × List Pending
  | [] => (current, [])
  | top :: stack =>
      if top.tier = tier then (top.join current, stack) else (current, top :: stack)

theorem absorb_nil (tier : Tier) (current : Node) : absorb tier current [] = (current, []) := rfl

theorem absorb_same (current : Node) (top : Pending) (stack : List Pending) :
    absorb top.tier current (top :: stack) = (top.join current, stack) :=
  if_pos rfl

theorem absorb_other
    {tier : Tier} {top : Pending} (different : top.tier ≠ tier)
    (current : Node) (stack : List Pending) :
    absorb tier current (top :: stack) = (current, top :: stack) :=
  if_neg different

/-- What a tier does not absorb waits in looser tiers. -/
theorem absorb_sublist
    {tier : Tier} {looser : List Tier} {stack : List Pending}
    (ordered : (stack.map Pending.tier).Sublist (tier :: looser)) (current : Node) :
    ((absorb tier current stack).2.map Pending.tier).Sublist looser := by
  cases stack with
  | nil => exact List.nil_sublist looser
  | cons top stack =>
      by_cases same : top.tier = tier
      · subst same
        rw [absorb_same]
        exact List.cons_sublist_cons.mp ordered
      · rw [absorb_other same]
        cases ordered with
        | cons _ inLooser => exact inLooser
        | cons_cons => exact absurd rfl same

/-- An operator of a tier that binds at least as tightly is joined anyhow. -/
theorem unwind_absorb
    {precedence : Nat} {tier : Tier} (tight : precedence ≤ tier.precedence)
    (current : Node) (stack : List Pending) :
    unwind precedence (absorb tier current stack).1 (absorb tier current stack).2 =
      unwind precedence current stack := by
  cases stack with
  | nil => rfl
  | cons top stack =>
      by_cases same : top.tier = tier
      · subst same
        rw [absorb_same, unwind, if_pos tight]
      · rw [absorb_other same]

theorem unwind_of_looser
    {precedence : Nat} {stack : List Pending}
    (loose : ∀ pending ∈ stack, pending.tier.precedence < precedence) (current : Node) :
    unwind precedence current stack = (current, stack) := by
  cases stack with
  | nil => rfl
  | cons top stack =>
      have below := loose top (List.mem_cons_self ..)
      rw [unwind, if_neg (Nat.not_le_of_lt below)]

end Pending

/-- The two stacks of the loop stay in step: there is one operand more than there are operators. -/
theorem reduceFrom_eq_unwind (precedence : Nat) (current : Node) (stack : List Pending) :
    reduceFrom precedence (current :: stack.map Pending.left) (stack.map Pending.waiting) =
      .ok
        ((Pending.unwind precedence current stack).1 ::
            (Pending.unwind precedence current stack).2.map Pending.left,
          (Pending.unwind precedence current stack).2.map Pending.waiting) := by
  induction stack generalizing current with
  | nil => rfl
  | cons top stack inductionHypothesis =>
      rw [List.map_cons, List.map_cons, reduceFrom, Pending.unwind]
      by_cases tight : precedence ≤ top.tier.precedence
      · have onTop : precedence ≤ top.waiting.precedence := tight
        rw [if_pos tight, if_pos onTop]
        exact inductionHypothesis (top.join current)
      · have onTop : ¬precedence ≤ top.waiting.precedence := tight
        rw [if_neg tight, if_neg onTop]
        rfl

namespace Descent

open Pending (unwind absorb)

/-- What the procedures of the given tiers have still to do when `current` is an operand of the
tightest of them: each joins what waits for it, goes on with its own operators, and returns to the
next looser one. -/
def resume : List Tier → Node → List Pending → List Lexed → Outcome Node
  | [], current, _, tokens => .accepted current tokens
  | tier :: looser, current, stack, tokens =>
      (joined tier (absorb tier current stack).1 tokens).outcome.andThen fun node rest =>
        resume looser node (absorb tier current stack).2 rest

/-- A token that is no operator of the given tiers ends them all. -/
theorem resume_of_foreign
    {tiers : List Tier} {stack : List Pending} {token : Lexed}
    (ordered : (stack.map Pending.tier).Sublist tiers)
    (foreign : token.kind.precedence = 0) (current : Node) (rest : List Lexed) :
    resume tiers current stack (token :: rest) =
        .accepted (unwind 0 current stack).1 (token :: rest) ∧
      (unwind 0 current stack).2 = [] := by
  induction tiers generalizing current stack with
  | nil =>
      have empty : stack = [] := List.map_eq_nil_iff.mp (List.sublist_nil.mp ordered)
      subst empty
      exact ⟨rfl, rfl⟩
  | cons tier looser inductionHypothesis =>
      have notOwn : tier.has token.kind = false := by
        rw [Tier.has_eq_false_iff, foreign]
        exact Nat.ne_of_lt tier.precedence_pos
      have later := inductionHypothesis (Pending.absorb_sublist ordered current)
        (absorb tier current stack).1
      rw [Pending.unwind_absorb (Nat.zero_le _)] at later
      rw [resume, outcome_joined_of_not_has notOwn, Outcome.andThen_accepted]
      exact later

/-- An operator of one of the tiers ends the tighter ones and is taken by its own, which by then has
joined what the stack unwinds for it. -/
theorem resume_of_operator
    {tighter looser : List Tier} {tier : Tier} {stack : List Pending} {token : Lexed}
    (ordered : (stack.map Pending.tier).Sublist (tighter ++ tier :: looser))
    (above : ∀ other ∈ tighter, tier.precedence < other.precedence)
    (below : ∀ other ∈ looser, other.precedence < tier.precedence)
    (own : token.kind.precedence = tier.precedence) (current : Node) (rest : List Lexed) :
    resume (tighter ++ tier :: looser) current stack (token :: rest) =
        (joined tier (unwind tier.precedence current stack).1 (token :: rest)).outcome.andThen
          (fun node after => resume looser node (unwind tier.precedence current stack).2 after) ∧
      ((unwind tier.precedence current stack).2.map Pending.tier).Sublist looser := by
  induction tighter generalizing current stack with
  | nil =>
      have remaining := Pending.absorb_sublist ordered current
      have loose : ∀ pending ∈ (absorb tier current stack).2,
          pending.tier.precedence < tier.precedence := by
        intro pending member
        exact below _ (remaining.subset (List.mem_map_of_mem member))
      have unwound : unwind tier.precedence current stack = absorb tier current stack := by
        rw [← Pending.unwind_absorb (Nat.le_refl _), Pending.unwind_of_looser loose]
      rw [unwound]
      exact ⟨rfl, remaining⟩
  | cons other tighter inductionHypothesis =>
      -- The tighter tier joins what waits for it, and the operator is none of its own.
      have tight : tier.precedence < other.precedence := above other (List.mem_cons_self ..)
      have notOwn : other.has token.kind = false := by
        rw [Tier.has_eq_false_iff, own]
        exact Nat.ne_of_lt tight
      have later := inductionHypothesis (Pending.absorb_sublist ordered current)
        (fun another member => above another (List.mem_cons_of_mem _ member))
        (absorb other current stack).1
      rw [Pending.unwind_absorb (Nat.le_of_lt tight)] at later
      rw [List.cons_append, resume, outcome_joined_of_not_has notOwn, Outcome.andThen_accepted]
      exact later

/-- An expression is a factor with everything still to do. -/
theorem expression_eq_resume (tokens : List Lexed) :
    expression tokens =
      (factor tokens).outcome.andThen fun operand rest => resume Tier.all operand [] rest := by
  rw [expression, outcome_phrase, outcome_operand_comparison, outcome_phrase,
    outcome_operand_addition, outcome_phrase, outcome_operand_multiplication]
  simp only [Outcome.andThen_assoc, Tier.all, resume, Pending.absorb_nil,
    Outcome.andThen_accepted_right]

/-- The right operand of an operator is a factor with everything still to do, where the operator
waits on top of the stack. -/
theorem operand_eq_resume
    (tier : Tier) (operator : Operator) (left : Node) (stack : List Pending) :
    ∃ tighter looser,
      Tier.all = tighter ++ tier :: looser ∧
      (∀ other ∈ tighter, tier.precedence < other.precedence) ∧
      (∀ other ∈ looser, other.precedence < tier.precedence) ∧
      ∀ tokens,
        ((operand tier tokens).outcome.andThen fun right after =>
            (joined tier (.binary operator left right) after).outcome.andThen fun node rest =>
              resume looser node stack rest) =
          (factor tokens).outcome.andThen fun right after =>
            resume Tier.all right (⟨tier, operator, left⟩ :: stack) after := by
  cases tier with
  | multiplication =>
      refine ⟨[], [.addition, .comparison], rfl, by decide, by decide, ?_⟩
      intro tokens
      rw [outcome_operand_multiplication]
      rfl
  | addition =>
      refine ⟨[.multiplication], [.comparison], rfl, by decide, by decide, ?_⟩
      intro tokens
      rw [outcome_operand_addition, outcome_phrase, outcome_operand_multiplication,
        Outcome.andThen_assoc]
      rfl
  | comparison =>
      refine ⟨[.multiplication, .addition], [], rfl, by decide, by decide, ?_⟩
      intro tokens
      rw [outcome_operand_comparison, outcome_phrase, outcome_operand_addition, outcome_phrase,
        outcome_operand_multiplication, Outcome.andThen_assoc, Outcome.andThen_assoc]
      rfl

/-- An operator leaves on the stack what binds less tightly, waits on top of it, and is followed by
a factor. -/
theorem resume_cons
    {stack : List Pending} {tier : Tier} {operator : Operator} {token : Lexed}
    (ordered : (stack.map Pending.tier).Sublist Tier.all)
    (own : token.kind.precedence = tier.precedence)
    (meant : Operator.ofToken token.kind = .ok operator) (current : Node) (rest : List Lexed) :
    (((⟨tier, operator, (unwind tier.precedence current stack).1⟩ ::
          (unwind tier.precedence current stack).2 : List Pending).map
        Pending.tier).Sublist Tier.all) ∧
      resume Tier.all current stack (token :: rest) =
        (factor rest).outcome.andThen fun right after =>
          resume Tier.all right
            (⟨tier, operator, (unwind tier.precedence current stack).1⟩ ::
              (unwind tier.precedence current stack).2)
            after := by
  obtain ⟨tighter, looser, split, above, loose, rightOperand⟩ :=
    operand_eq_resume tier operator (unwind tier.precedence current stack).1
      (unwind tier.precedence current stack).2
  rw [split] at ordered
  have taken := resume_of_operator ordered above loose own current rest
  have has : tier.has token.kind = true := (Tier.has_eq_true_iff tier token.kind).mpr own
  constructor
  · rw [split]
    exact (taken.2.cons_cons tier).trans (List.sublist_append_right tighter _)
  · rw [← rightOperand rest]
    rw [split, taken.1, outcome_joined_of_has has meant, Outcome.andThen_assoc]

end Descent

/-! ### Agreement of the two parsers -/

/-- The stack of a chain is one of operators that wait in order. -/
def Call.Stacked : Call → Prop
  | chain operands waiting =>
      ∃ (current : Node) (stack : List Pending), (stack.map Pending.tier).Sublist Tier.all ∧
        operands = current :: stack.map Pending.left ∧ waiting = stack.map Pending.waiting
  | _ => True

/-- An allowance that suffices for a procedure in front of `count` tokens. At most three calls are
nested between one token and the next. -/
def Call.need (count : Nat) : Call → Nat
  | expression => 3 * count + 2
  | chain _ _ => 3 * count + 1
  | factor => 3 * count + 1
  | name _ => 3 * count + 1
  | arguments _ _ => 3 * count + 3

def Call.Fits (allowance : Nat) (call : Call) (count : Nat) : Prop :=
  call.Stacked ∧ call.need count ≤ allowance

/-- Where a call fits, the calls of its plan fit with an allowance that is smaller by one. -/
theorem Call.plan_fits
    {allowance count : Nat} {call : Call} (fits : call.Fits (allowance + 1) count) :
    call.plan.Calls (Fits allowance) count := by
  obtain ⟨stacked, enough⟩ := fits
  cases call with
  | expression =>
      simp only [need] at enough
      refine ⟨⟨trivial, Nat.le_of_succ_le_succ enough⟩, fun operand left _ fewer => ?_⟩
      have fewer := fewer rfl
      refine ⟨⟨⟨operand, [], List.nil_sublist _, rfl, rfl⟩, ?_⟩, fun _ _ _ _ => trivial⟩
      simp only [need]
      omega
  | chain operands waiting =>
      obtain ⟨current, stack, ordered, rfl, rfl⟩ := stacked
      intro kind lexeme
      simp only [need] at enough
      simp only [reduceFrom_eq_unwind]
      by_cases foreign : kind.precedence = 0
      · rw [if_pos foreign]
        split <;> trivial
      · obtain ⟨tier, operator, own, meant⟩ := Tier.exists_of_precedence_ne_zero foreign
        have joins := @Descent.resume_cons stack tier operator ⟨kind, lexeme, 0⟩ ordered own meant
          current []
        rw [if_neg foreign, meant, own]
        refine fun left fewer => ⟨⟨trivial, ?_⟩, fun right rest _ _ => ?_⟩
        · simp only [need]
          omega
        · refine ⟨⟨⟨right, _, joins.1, rfl, rfl⟩, ?_⟩, fun _ _ _ _ => trivial⟩
          simp only [need]
          omega
  | factor =>
      intro kind lexeme
      simp only [need] at enough
      simp only
      split
      · refine fun left fewer => ⟨⟨trivial, ?_⟩, fun _ _ _ _ => trivial⟩
        simp only [need]
        omega
      · split
        · exact fun _ _ => trivial
        · trivial
      · refine fun left fewer => ⟨⟨trivial, ?_⟩, fun _ _ _ _ => trivial⟩
        simp only [need]
        omega
      · refine fun left fewer => ⟨⟨trivial, ?_⟩, fun _ _ _ _ => ?_⟩
        · simp only [need]
          omega
        · exact Plan.calls_expect _ _ fun _ _ => trivial
      · trivial
  | name callee =>
      intro kind lexeme
      simp only [need] at enough
      simp only
      split
      · intro left fewer kind lexeme
        simp only
        split
        · exact fun _ _ => trivial
        · refine ⟨⟨trivial, ?_⟩, fun _ _ _ _ => trivial⟩
          simp only [need]
          omega
      · trivial
  | arguments callee found =>
      simp only [need] at enough
      refine ⟨⟨trivial, Nat.le_of_succ_le_succ enough⟩, fun argument rest _ fewer kind lexeme => ?_⟩
      have fewer := fewer rfl
      simp only
      split
      · exact fun _ _ => trivial
      · split
        · refine fun left fewerLeft => ⟨⟨trivial, ?_⟩, fun _ _ _ _ => trivial⟩
          simp only [need]
          omega
        · trivial

theorem Call.plan_stacked {call : Call} (stacked : call.Stacked) (count : Nat) :
    call.plan.Calls (fun first _ => first.Stacked) count :=
  have fits : call.Fits (call.need count + 1) count := ⟨stacked, Nat.le_succ _⟩
  (plan_fits fits).imp fun _ _ => And.left

namespace Plan

variable {allowance count : Nat}

theorem conditional_fits (enough : 3 * count + 2 ≤ allowance) :
    conditional.Calls (Call.Fits allowance) count := by
  refine ⟨⟨trivial, enough⟩, fun condition rest _ _ => calls_expect _ _ fun left fewer => ?_⟩
  refine ⟨⟨trivial, ?_⟩, fun whenTrue rest _ _ => calls_expect _ _ fun left fewer => ?_⟩
  · simp only [Call.need]
    omega
  · refine ⟨⟨trivial, ?_⟩, fun _ _ _ _ => trivial⟩
    simp only [Call.need]
    omega

theorem body_fits (enough : 3 * count + 2 ≤ allowance) :
    body.Calls (Call.Fits allowance) count := by
  intro kind lexeme
  simp only
  split
  · exact fun left fewer => conditional_fits (by omega)
  · exact ⟨⟨trivial, enough⟩, fun _ _ _ _ => trivial⟩

theorem conditional_stacked (count : Nat) : conditional.Calls (fun first _ => first.Stacked) count :=
  (conditional_fits (Nat.le_refl _)).imp fun _ _ => And.left

theorem body_stacked (count : Nat) : body.Calls (fun first _ => first.Stacked) count :=
  (body_fits (Nat.le_refl _)).imp fun _ _ => And.left

end Plan

namespace Descent

def tierOf : (precedence : Nat) → Tier
  | 1 => .comparison
  | 2 => .addition
  | _ => .multiplication

def pendingOf (left : Node) (waiting : Waiting) : Pending :=
  ⟨tierOf waiting.precedence, waiting.operator, left⟩

theorem zipWith_pendingOf (stack : List Pending) :
    List.zipWith pendingOf (stack.map Pending.left) (stack.map Pending.waiting) = stack := by
  induction stack with
  | nil => rfl
  | cons top stack inductionHypothesis =>
      obtain ⟨tier, operator, left⟩ := top
      rw [List.map_cons, List.map_cons, List.zipWith_cons_cons, inductionHypothesis]
      cases tier <;> rfl

def call : Call → List Lexed → Outcome Node
  | .expression, tokens => expression tokens
  | .chain [] _, _ => .interrupted
  | .chain (current :: lefts) waiting, tokens =>
      resume Tier.all current (List.zipWith pendingOf lefts waiting) tokens
  | .factor, tokens => (factor tokens).outcome
  | .name callee, tokens => (named callee tokens).outcome
  | .arguments callee found, tokens => (arguments callee found.reverse tokens).outcome

theorem call_chain (current : Node) (stack : List Pending) (tokens : List Lexed) :
    call (.chain (current :: stack.map Pending.left) (stack.map Pending.waiting)) tokens =
      resume Tier.all current stack tokens := by
  rw [call, zipWith_pendingOf]

theorem run_chain
    {stack : List Pending} (ordered : (stack.map Pending.tier).Sublist Tier.all) (current : Node)
    (tokens : List Lexed) :
    (Call.chain (current :: stack.map Pending.left) (stack.map Pending.waiting)).plan.run call tokens =
      resume Tier.all current stack tokens := by
  cases tokens with
  | nil =>
      rw [Tier.all, resume, joined]
      rfl
  | cons token rest =>
      simp only [Call.plan, Plan.run, reduceFrom_eq_unwind]
      by_cases foreign : token.kind.precedence = 0
      · have ends := resume_of_foreign ordered foreign current rest
        simp only [foreign, if_true, ends.1, ends.2, List.map_nil, Plan.run]
      · obtain ⟨tier, operator, own, meant⟩ := Tier.exists_of_precedence_ne_zero foreign
        rw [(resume_cons ordered own meant current rest).2]
        simp only [own, meant, Nat.ne_of_gt tier.precedence_pos, if_false, Plan.run]
        apply Outcome.andThen_congr
        intro right after _
        rw [← call_chain]
        exact Outcome.andThen_accepted_right _

/-- The descent follows the plans too. -/
theorem call_eq_run {called : Call} (stacked : called.Stacked) (tokens : List Lexed) :
    call called tokens = called.plan.run call tokens := by
  have last (outcome : Outcome Node) :
      (outcome.andThen fun node rest => .accepted node rest) = outcome :=
    outcome.andThen_accepted_right
  cases called with
  | expression =>
      simp only [Call.plan, Plan.run, last]
      exact expression_eq_resume tokens
  | chain operands waiting =>
      obtain ⟨current, stack, ordered, rfl, rfl⟩ := stacked
      rw [run_chain ordered, call_chain]
  | factor =>
      cases tokens with
      | nil => exact outcome_factor_nil
      | cons token rest =>
          rw [call, outcome_factor_cons, Call.plan, Plan.run]
          cases token.kind
          case identifier => simp only [Plan.run, last, call]
          case number =>
              rw [numeral]
              cases Number.Decimal.read? token.lexeme.toList <;> rfl
          case leftParenthesis => simp only [Plan.run, Plan.run_expect, call]
          all_goals rfl
  | name callee =>
      rw [call, outcome_named, Call.plan]
      cases tokens with
      | nil => rfl
      | cons token rest =>
          simp only [Plan.run]
          split
          · cases rest with
            | nil => rfl
            | cons first after =>
                simp only [Plan.run]
                split
                · rfl
                · simp only [Plan.run, last, call, List.reverse_nil]
          · rfl
  | arguments callee found =>
      rw [call, outcome_arguments, Call.plan, Plan.run]
      apply Outcome.andThen_congr
      intro argument rest _
      cases rest with
      | nil => rfl
      | cons token after =>
          simp only [Plan.run, List.reverse_cons]
          split
          · rfl
          · split
            · simp only [Plan.run, last, call, List.reverse_cons]
            · rfl

end Descent

/-- With an allowance that suffices, the loop and the recursive descent agree. -/
theorem Call.within_eq_descent
    {allowance : Nat} {call : Call} {tokens : List Lexed}
    (fits : call.Fits allowance tokens.length) :
    call.within allowance tokens = Descent.call call tokens := by
  induction allowance generalizing call tokens with
  | zero =>
      obtain ⟨_, enough⟩ := fits
      cases call <;> cases enough
  | succ allowance inductionHypothesis =>
      rw [within_succ, Descent.call_eq_run fits.1]
      exact Plan.run_congr (fun _ _ => inductionHypothesis) (within_advances allowance)
        (plan_fits fits)

theorem Plan.run_within_eq_descent
    {allowance : Nat} {plan : Plan} {tokens : List Lexed}
    (fits : plan.Calls (Call.Fits allowance) tokens.length) :
    plan.run (Call.within allowance) tokens = plan.run Descent.call tokens :=
  run_congr (fun _ _ => Call.within_eq_descent) (Call.within_advances allowance) fits

theorem expressionWithin_eq
    {allowance : Nat} {tokens : List Lexed} (enough : allowanceFor tokens ≤ allowance) :
    expressionWithin allowance tokens = Descent.expression tokens :=
  @Call.within_eq_descent allowance .expression tokens ⟨trivial, Nat.le_of_succ_le enough⟩

theorem complete_drop
    {tokens : List Lexed} {position : Nat}
    (inside : position < tokens.length)
    (closed : tokens.getLast?.map Lexed.kind = some .endOfInput)
    (readable : Readable tokens) :
    Complete (tokens.drop position) := by
  obtain ⟨last, found, isEnd⟩ := Option.map_eq_some_iff.mp closed
  constructor
  · refine ⟨last, ?_, by rw [isEnd]; rfl⟩
    apply List.mem_of_getLast?
    rw [List.getLast?_drop, if_neg (Nat.not_le_of_lt inside)]
    exact found
  · intro token member
    exact readable token (List.mem_of_mem_drop member)

/-- From every position of a list of tokens the loop with its operator stack comes to the same
outcome as the recursive descent: the same node or the same diagnostic, and the same tokens left.
In a list that the end of the input closes, that outcome is a node or a diagnostic. -/
theorem operatorStack_agrees_with_descent (tokens : List Lexed) (position : Nat) :
    expressionWithin (allowanceFor tokens) (tokens.drop position) =
        Descent.expression (tokens.drop position) ∧
      (position < tokens.length →
        tokens.getLast?.map Lexed.kind = some .endOfInput →
        Readable tokens →
        (∃ node rest, Descent.expression (tokens.drop position) = .accepted node rest) ∨
          ∃ diagnostic rest,
            Descent.expression (tokens.drop position) = .rejected diagnostic rest) := by
  constructor
  · apply expressionWithin_eq
    unfold allowanceFor
    rw [List.length_drop]
    omega
  · intro inside closed readable
    have complete := complete_drop inside closed readable
    exact (Descent.expression_decided complete).accepted_or_rejected

/-- The tokens of `(a + b * 2 < -c - d`, where the parenthesis is not closed. -/
def mixedChain : List Lexed :=
  [⟨.leftParenthesis, "(", 1⟩, ⟨.identifier, "a", 1⟩, ⟨.plus, "+", 1⟩, ⟨.identifier, "b", 1⟩,
    ⟨.star, "*", 1⟩, ⟨.number, "2", 1⟩, ⟨.less, "<", 1⟩, ⟨.minus, "-", 1⟩, ⟨.identifier, "c", 1⟩,
    ⟨.minus, "-", 1⟩, ⟨.identifier, "d", 1⟩, ⟨.endOfInput, "", 1⟩]

/-- From the second token on there is an expression, and from the first there is none. -/
theorem operatorStack_agrees_on_mixedChain :
    (Descent.expression (mixedChain.drop 1) =
        .accepted
          (.binary .less
            (.binary .plus (.reference "a")
              (.binary .times (.reference "b") (.number (Number.Decimal.toBinary64 ⟨2, 0⟩))))
            (.unary .negate (.binary .minus (.reference "c") (.reference "d"))))
          [⟨.endOfInput, "", 1⟩] ∧
      Descent.expression (mixedChain.drop 0) =
        .rejected (Complaint.closingMissing.about ⟨.endOfInput, "", 1⟩)
          [⟨.endOfInput, "", 1⟩]) ∧
      ((∃ node rest, Descent.expression (mixedChain.drop 1) = .accepted node rest) ∨
        ∃ diagnostic rest, Descent.expression (mixedChain.drop 1) = .rejected diagnostic rest) := by
  refine ⟨⟨?_, ?_⟩, ?_⟩
  · rw [← (operatorStack_agrees_with_descent mixedChain 1).1]
    rfl
  · rw [← (operatorStack_agrees_with_descent mixedChain 0).1]
    rfl
  · exact (operatorStack_agrees_with_descent mixedChain 1).2 (by decide) rfl
      (by unfold Readable; decide)

end ExprWasm.Phrase
