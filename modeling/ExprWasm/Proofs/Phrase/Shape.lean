import ExprWasm.Proofs.Phrase.Definition

/-! The trees that phrases are read as.

The tree of an accepted phrase has a certain shape: the names in it are names among the tokens, its
numbers were read from decimals, and a conditional stands at the root or nowhere. -/

set_option autoImplicit false

namespace ExprWasm.Phrase

open Token (Kind Lexed)
open ExprWasm.Tree (Node Operator Prototype Function)

/-! ### Shapes -/

inductive Expression (named : String → Prop) : Node → Prop where
  | number (decimal : Number.Decimal) : Expression named (.number decimal.toBinary64)
  | reference {name : String} (isName : named name) : Expression named (.reference name)
  | call {name : String} {arguments : List Node} (isName : named name)
      (inner : ∀ argument ∈ arguments, Expression named argument) :
      Expression named (.call name arguments)
  | negated {operand : Node} (inner : Expression named operand) :
      Expression named (.unary .negate operand)
  | binary {operator : Operator} {left right : Node} (isBinary : operator ≠ .negate)
      (first : Expression named left) (second : Expression named right) :
      Expression named (.binary operator left right)

inductive Body (named : String → Prop) : Node → Prop where
  | expression {node : Node} (isExpression : Expression named node) : Body named node
  | conditional {condition whenTrue whenFalse : Node} (first : Expression named condition)
      (second : Expression named whenTrue) (third : Expression named whenFalse) :
      Body named (.conditional condition whenTrue whenFalse)

def Names (named : String → Prop) (tokens : List Lexed) : Prop :=
  ∀ token ∈ tokens, token.kind = .identifier → named token.lexeme

theorem Names.of_suffix
    {named : String → Prop} {tokens rest : List Lexed} (names : Names named tokens)
    (suffix : rest <:+ tokens) : Names named rest :=
  fun token member => names token (suffix.subset member)

/-! ### Expressions -/

theorem ne_negate_of_ofToken
    {kind : Kind} {operator : Operator} (meant : Operator.ofToken kind = .ok operator) :
    operator ≠ .negate := by
  rintro rfl
  cases kind <;> cases meant

/-- Joining operands that are trees of expressions gives such trees. -/
theorem reduceFrom_shape
    {named : String → Prop} {precedence : Nat} {operands : List Node} {waiting : List Waiting}
    (areExpressions : ∀ operand ∈ operands, Expression named operand)
    (areBinary : ∀ item ∈ waiting, item.operator ≠ .negate)
    {reduced : List Node} {left : List Waiting}
    (reduces : reduceFrom precedence operands waiting = .ok (reduced, left)) :
    (∀ operand ∈ reduced, Expression named operand) ∧
      ∀ item ∈ left, item.operator ≠ .negate := by
  induction waiting generalizing operands with
  | nil =>
      rw [reduceFrom] at reduces
      cases reduces
      exact ⟨areExpressions, areBinary⟩
  | cons top waiting inductionHypothesis =>
      rw [reduceFrom] at reduces
      by_cases tight : precedence ≤ top.precedence
      · rw [if_pos tight] at reduces
        cases operands with
        | nil => cases reduces
        | cons right operands =>
            rcases List.forall_mem_cons.mp areExpressions with ⟨isRight, others⟩
            cases operands with
            | nil => cases reduces
            | cons left operands =>
                rcases List.forall_mem_cons.mp others with ⟨isLeft, below⟩
                rcases List.forall_mem_cons.mp areBinary with ⟨isBinary, later⟩
                have joined : Expression named (.binary top.operator left right) :=
                  Expression.binary isBinary isLeft isRight
                exact inductionHypothesis (List.forall_mem_cons.mpr ⟨joined, below⟩) later reduces
      · rw [if_neg tight] at reduces
        cases reduces
        exact ⟨areExpressions, areBinary⟩

def Call.Shaped (named : String → Prop) : Call → Prop
  | chain operands waiting =>
      (∀ operand ∈ operands, Expression named operand) ∧
        ∀ item ∈ waiting, item.operator ≠ .negate
  | name callee => named callee
  | arguments callee found => named callee ∧ ∀ argument ∈ found, Expression named argument
  | _ => True

/-- A plan that accepts only certain trees, if its calls accept trees of expressions. -/
def Plan.Shaped (named : String → Prop) (fits : Node → Prop) : Plan → Prop
  | accept node => fits node
  | reject _ => True
  | fail _ => True
  | look next =>
      ∀ kind lexeme, (kind = .identifier → named lexeme) → (next kind lexeme).Shaped named fits
  | take next => next.Shaped named fits
  | call first next =>
      first.Shaped named ∧ ∀ node, Expression named node → (next node).Shaped named fits

variable {named : String → Prop} {tokens : List Lexed}

theorem Plan.shaped_expect
    {fits : Node → Prop} {next : Plan} (shaped : next.Shaped named fits) (kind : Kind)
    (complaint : Complaint) : (expect kind complaint next).Shaped named fits := by
  intro found _ _
  simp only
  split
  · exact shaped
  · trivial

theorem Call.plan_shaped {call : Call} (shaped : call.Shaped named) :
    call.plan.Shaped named (Expression named) := by
  cases call with
  | expression =>
      refine ⟨trivial, fun operand isOperand => ⟨⟨?_, List.forall_mem_nil _⟩, fun _ => id⟩⟩
      exact List.forall_mem_singleton.mpr isOperand
  | chain operands waiting =>
      intro kind lexeme _
      simp only
      split
      · trivial
      · rename_i reduces
        obtain ⟨areExpressions, areBinary⟩ := reduceFrom_shape shaped.1 shaped.2 reduces
        split
        · split
          · exact areExpressions _ (List.mem_cons_self ..)
          · trivial
        · split
          · trivial
          · rename_i meant
            refine ⟨trivial, fun operand isOperand => ⟨⟨?_, ?_⟩, fun _ => id⟩⟩
            · exact List.forall_mem_cons.mpr ⟨isOperand, areExpressions⟩
            · exact List.forall_mem_cons.mpr ⟨ne_negate_of_ofToken meant, areBinary⟩
  | factor =>
      intro kind lexeme isNamed
      simp only
      split
      · exact ⟨isNamed rfl, fun _ => id⟩
      · split
        · exact Expression.number _
        · trivial
      · exact ⟨trivial, fun _ => Expression.negated⟩
      · refine ⟨trivial, fun node isNode => Plan.shaped_expect ?_ _ _⟩
        exact isNode
      · trivial
  | name callee =>
      intro kind _ _
      simp only
      split
      · intro kind _ _
        simp only
        split
        · exact Expression.call shaped (List.forall_mem_nil _)
        · exact ⟨⟨shaped, List.forall_mem_nil _⟩, fun _ => id⟩
      · exact Expression.reference shaped
  | arguments callee found =>
      refine ⟨trivial, fun argument isArgument kind _ _ => ?_⟩
      have areAll := List.forall_mem_cons.mpr ⟨isArgument, shaped.2⟩
      simp only
      split
      · exact Expression.call shaped.1 fun each member => areAll each (List.mem_reverse.mp member)
      · split
        · exact ⟨⟨shaped.1, areAll⟩, fun _ => id⟩
        · trivial

theorem Plan.run_shaped
    {calls : Call → List Lexed → Outcome Node} {fits : Node → Prop}
    (shape : ∀ call tokens, call.Shaped named → Names named tokens →
      (calls call tokens).Yields fun node rest => Expression named node ∧ Names named rest)
    {plan : Plan} (shaped : plan.Shaped named fits) (names : Names named tokens) :
    (plan.run calls tokens).Yields fun node rest => fits node ∧ Names named rest := by
  induction plan generalizing tokens with
  | accept node => exact ⟨shaped, names⟩
  | reject complaint => cases tokens <;> trivial
  | fail failure => cases tokens <;> trivial
  | look next inductionHypothesis =>
      cases tokens with
      | nil => trivial
      | cons token rest =>
          have isNamed := names token (List.mem_cons_self ..)
          exact inductionHypothesis _ _ (shaped token.kind token.lexeme isNamed) names
  | take next inductionHypothesis =>
      cases tokens with
      | nil => trivial
      | cons token rest =>
          exact inductionHypothesis shaped (names.of_suffix (List.suffix_cons token rest))
  | call first next inductionHypothesis =>
      apply (shape first tokens shaped.1 names).andThen
      rintro node rest ⟨isNode, namesRest⟩
      exact inductionHypothesis node (shaped.2 node isNode) namesRest

theorem Call.within_shaped
    (allowance : Nat) (call : Call) (tokens : List Lexed) (shaped : call.Shaped named)
    (names : Names named tokens) :
    (call.within allowance tokens).Yields fun node rest =>
      Expression named node ∧ Names named rest := by
  refine @within_of_step
    (fun call reads => ∀ tokens, call.Shaped named → Names named tokens →
      (reads tokens).Yields fun node rest => Expression named node ∧ Names named rest)
    (fun _ _ _ _ => trivial) ?_ allowance call tokens shaped names
  intro calls shape call tokens shaped names
  exact Plan.run_shaped shape (plan_shaped shaped) names

/-! ### Definitions -/

theorem Plan.conditional_shaped : conditional.Shaped named (Body named) := by
  refine ⟨trivial, fun condition isCondition => shaped_expect ?_ _ _⟩
  refine ⟨trivial, fun whenTrue isTrue => shaped_expect ?_ _ _⟩
  exact ⟨trivial, fun whenFalse isFalse => Body.conditional isCondition isTrue isFalse⟩

theorem Plan.body_shaped : body.Shaped named (Body named) := by
  intro kind _ _
  simp only
  split
  · exact conditional_shaped
  · exact ⟨trivial, fun _ => Body.expression⟩

theorem definition_shape (names : Names named tokens) :
    (Descent.definition tokens).Yields fun function _ => Body named function.body := by
  have prototypes : (prototype tokens).Yields fun _ rest => rest <:+ tokens := by
    cases found : prototype tokens with
    | accepted head rest =>
        obtain ⟨name, opening, parameters, closing, split, _⟩ := prototype_eq_accepted found
        exact ⟨name :: opening :: (parameters ++ [closing]), by rw [split]; simp⟩
    | rejected diagnostic rest => trivial
    | interrupted => trivial
    | failed failure => trivial
  apply prototypes.andThen
  intro head rest suffix
  rw [← bodyWithin_eq (Nat.le_refl _), bodyWithin_eq_run]
  apply (Plan.run_shaped (Call.within_shaped _) Plan.body_shaped (names.of_suffix suffix)).andThen
  rintro body left ⟨shape, _⟩
  exact shape

end ExprWasm.Phrase
