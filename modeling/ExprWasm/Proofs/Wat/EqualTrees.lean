import ExprWasm.Proofs.Wat.Emission
import ExprWasm.Wat.Sink

/-! Equal trees have the same lines and the same texts.

Trees are equal if they differ at most in the signs of zeros, which are in no text. So whatever is
made of a tree is also made of the tree with all its zeros positive, and equal trees share that one.
-/

set_option autoImplicit false

namespace ExprWasm

/-! ### Zeros without a sign -/

namespace Number.Binary64

def unsignedZero (number : Binary64) : Binary64 :=
  if number.pattern = 0 then ⟨0⟩ else number

/-- The text depends on the pattern and the sign that is written. -/
theorem text_of_pattern
    {number other : Binary64} (pattern : number.pattern = other.pattern)
    (sign : number.signText = other.signText) : number.text = other.text := by
  have decimal : number.shortestDecimal = other.shortestDecimal := by
    rw [shortestDecimal, isIntegral, isFinite, wholePart, units, pattern]
    rfl
  rw [text, isNaN, isInfinite, pattern, sign, decimal]
  rfl

theorem signText_of_zero {number : Binary64} (zero : number.pattern = 0) :
    number.signText = [] := by
  rw [signText, zero, Bool.and_comm]
  rfl

theorem text_unsignedZero (number : Binary64) : number.unsignedZero.text = number.text := by
  by_cases zero : number.pattern = 0
  · rw [unsignedZero, if_pos zero]
    exact text_of_pattern zero.symm (signText_of_zero zero).symm
  · rw [unsignedZero, if_neg zero]

theorem unsignedZero_of_sameValue {left right : Binary64} (same : left.sameValue right = true) :
    left.unsignedZero = right.unsignedZero := by
  simp only [sameValue, Bool.and_eq_true, Bool.or_eq_true, beq_iff_eq] at same
  rcases same.2 with bits | ⟨zero, alsoZero⟩
  · exact congrArg (fun bits => unsignedZero ⟨bits⟩) bits
  · rw [unsignedZero, unsignedZero, if_pos zero, if_pos alsoZero]

end Number.Binary64

namespace Tree.Node

open Number (Binary64)

mutual

def unsignedZeros : Node → Node
  | number value => number value.unsignedZero
  | reference name => reference name
  | binary operator left right => binary operator left.unsignedZeros right.unsignedZeros
  | unary operator operand => unary operator operand.unsignedZeros
  | call callee arguments => call callee (unsignedZerosOfAll arguments)
  | conditional condition whenTrue whenFalse =>
      conditional condition.unsignedZeros whenTrue.unsignedZeros whenFalse.unsignedZeros
  | prototype head => prototype head
  | function head body => function head body.unsignedZeros
  | unit functions => unit (unsignedZerosOfAll functions)
  | bareExpression => bareExpression
  | bareNode => bareNode

def unsignedZerosOfAll : List Node → List Node
  | [] => []
  | node :: rest => node.unsignedZeros :: unsignedZerosOfAll rest

end

mutual

theorem unsignedZeros_of_sameTree : (left right : Node) → left.sameTree right = true →
    left.unsignedZeros = right.unsignedZeros
  | number value, right, same => by
      cases right with
      | number other => rw [unsignedZeros, unsignedZeros, Binary64.unsignedZero_of_sameValue same]
      | _ => cases same
  | reference name, right, same => by
      cases right with
      | reference other => rw [eq_of_beq same]
      | _ => cases same
  | binary operator first second, right, same => by
      cases right with
      | binary other otherFirst otherSecond =>
          simp only [sameTree, Bool.and_eq_true, beq_iff_eq] at same
          rw [unsignedZeros, unsignedZeros, same.1.1, unsignedZeros_of_sameTree _ _ same.1.2,
            unsignedZeros_of_sameTree _ _ same.2]
      | _ => cases same
  | unary operator operand, right, same => by
      cases right with
      | unary other otherOperand =>
          simp only [sameTree, Bool.and_eq_true, beq_iff_eq] at same
          rw [unsignedZeros, unsignedZeros, same.1, unsignedZeros_of_sameTree _ _ same.2]
      | _ => cases same
  | call callee arguments, right, same => by
      cases right with
      | call other otherArguments =>
          simp only [sameTree, Bool.and_eq_true, beq_iff_eq] at same
          rw [unsignedZeros, unsignedZeros, same.1, unsignedZeros_of_sameTrees _ _ same.2]
      | _ => cases same
  | conditional condition whenTrue whenFalse, right, same => by
      cases right with
      | conditional otherCondition otherTrue otherFalse =>
          simp only [sameTree, Bool.and_eq_true] at same
          rw [unsignedZeros, unsignedZeros, unsignedZeros_of_sameTree _ _ same.1.1,
            unsignedZeros_of_sameTree _ _ same.1.2, unsignedZeros_of_sameTree _ _ same.2]
      | _ => cases same
  | prototype head, right, same => by
      cases right with
      | prototype other => rw [eq_of_beq same]
      | _ => cases same
  | function head body, right, same => by
      cases right with
      | function other otherBody =>
          simp only [sameTree, Bool.and_eq_true, beq_iff_eq] at same
          rw [unsignedZeros, unsignedZeros, same.1, unsignedZeros_of_sameTree _ _ same.2]
      | _ => cases same
  | unit functions, right, same => by
      cases right with
      | unit others => rw [unsignedZeros, unsignedZeros, unsignedZeros_of_sameTrees _ _ same]
      | _ => cases same
  | bareExpression, right, same => by
      cases right with
      | bareExpression => rfl
      | _ => cases same
  | bareNode, right, same => by
      cases right with
      | bareNode => rfl
      | _ => cases same

theorem unsignedZeros_of_sameTrees : (left right : List Node) → sameTrees left right = true →
    unsignedZerosOfAll left = unsignedZerosOfAll right
  | [], right, same => by
      cases right with
      | nil => rfl
      | cons => cases same
  | node :: rest, right, same => by
      cases right with
      | nil => cases same
      | cons other others =>
          simp only [sameTrees, Bool.and_eq_true] at same
          rw [unsignedZerosOfAll, unsignedZerosOfAll, unsignedZeros_of_sameTree _ _ same.1,
            unsignedZeros_of_sameTrees _ _ same.2]

end

/-! ### Texts -/

mutual

theorem parenthesized_unsignedZeros : (node : Node) →
    node.unsignedZeros.parenthesized = node.parenthesized
  | number value => value.text_unsignedZero
  | binary operator left right => by
      rw [unsignedZeros, parenthesized, parenthesized, parenthesized_unsignedZeros left,
        parenthesized_unsignedZeros right]
  | unary operator operand => by
      rw [unsignedZeros, parenthesized, parenthesized, parenthesized_unsignedZeros operand]
  | call callee arguments => by
      rw [unsignedZeros, parenthesized, parenthesized, allParenthesized_unsignedZeros arguments]
  | conditional condition whenTrue whenFalse => by
      rw [unsignedZeros, parenthesized, parenthesized, parenthesized_unsignedZeros condition,
        parenthesized_unsignedZeros whenTrue, parenthesized_unsignedZeros whenFalse]
  | reference _ | prototype _ | function .. | unit _ | bareExpression | bareNode => rfl

theorem allParenthesized_unsignedZeros : (nodes : List Node) →
    allParenthesized (unsignedZerosOfAll nodes) = allParenthesized nodes
  | [] => rfl
  | node :: rest => by
      rw [unsignedZerosOfAll, allParenthesized, allParenthesized, parenthesized_unsignedZeros node,
        allParenthesized_unsignedZeros rest]

end

theorem printed_unsignedZeros (node : Node) : node.unsignedZeros.printed = node.printed := by
  rw [printed_eq_parenthesized, printed_eq_parenthesized, parenthesized_unsignedZeros]

theorem outline_of_isExpression
    {node : Node} (expression : node.isExpression = true) (depth : Nat) :
    node.outline depth = [indented depth node.printed] := by
  cases node with
  | prototype _ | function _ _ | unit _ | bareNode => cases expression
  | _ => rfl

mutual

theorem outline_unsignedZeros : (node : Node) → (depth : Nat) →
    node.unsignedZeros.outline depth = node.outline depth
  | unit functions, depth => by
      rw [unsignedZeros, outline, outline, outlineAll_unsignedZeros functions]
  | function head body, depth => by
      rw [unsignedZeros, outline, outline, printed_unsignedZeros body]
  | prototype _, _ | bareNode, _ => rfl
  | number _, depth | reference _, depth | binary .., depth | unary .., depth | call .., depth
  | conditional .., depth | bareExpression, depth => by
      rw [outline_of_isExpression rfl, outline_of_isExpression rfl, printed_unsignedZeros]

theorem outlineAll_unsignedZeros : (nodes : List Node) → (depth : Nat) →
    outlineAll depth (unsignedZerosOfAll nodes) = outlineAll depth nodes
  | [], _ => rfl
  | node :: rest, depth => by
      rw [unsignedZerosOfAll, outlineAll, outlineAll, outline_unsignedZeros node,
        outlineAll_unsignedZeros rest]

end

theorem name?_unsignedZeros (node : Node) : node.unsignedZeros.name? = node.name? := by
  cases node <;> rfl

theorem kindName_unsignedZeros (node : Node) : node.unsignedZeros.kindName = node.kindName := by
  cases node <;> rfl

end Tree.Node

namespace Wat

open ExprWasm.Tree (Node Printer)

/-! ### Lines -/

theorem unnamed?_unsignedZeros (nodes : List Node) :
    unnamed? (Node.unsignedZerosOfAll nodes) = unnamed? nodes := by
  induction nodes with
  | nil => rfl
  | cons node rest inductionHypothesis =>
      have named := node.name?_unsignedZeros
      cases first : node.name? with
      | none =>
          rw [first] at named
          rw [Node.unsignedZerosOfAll, unnamed?_cons_of_none named, unnamed?_cons_of_none first,
            node.kindName_unsignedZeros]
      | some name =>
          rw [first] at named
          rw [Node.unsignedZerosOfAll, unnamed?_cons_of_name named, unnamed?_cons_of_name first,
            inductionHypothesis]

theorem exports_unsignedZeros (nodes : List Node) :
    exports (Node.unsignedZerosOfAll nodes) = exports nodes := by
  have names : (Node.unsignedZerosOfAll nodes).filterMap Node.name? = nodes.filterMap Node.name? := by
    induction nodes with
    | nil => rfl
    | cons node rest inductionHypothesis =>
        rw [Node.unsignedZerosOfAll, List.filterMap_cons, List.filterMap_cons,
          node.name?_unsignedZeros, inductionHypothesis]
  rw [exports, exports, names]

mutual

theorem emission_unsignedZeros : (node : Node) → emission node.unsignedZeros = emission node
  | .number value => by rw [Node.unsignedZeros, emission, emission, value.text_unsignedZero]
  | .binary operator left right => by
      rw [Node.unsignedZeros, emission, emission, emission_unsignedZeros left,
        emission_unsignedZeros right]
  | .unary operator operand => by
      rw [Node.unsignedZeros, emission, emission, emission_unsignedZeros operand]
  | .call callee arguments => by
      rw [Node.unsignedZeros, emission, emission, emissionOfAll_unsignedZeros arguments]
  | .conditional condition whenTrue whenFalse => by
      rw [Node.unsignedZeros, emission, emission, emission_unsignedZeros condition,
        emission_unsignedZeros whenTrue, emission_unsignedZeros whenFalse]
  | .function head body => by
      rw [Node.unsignedZeros, emission, emission, emission_unsignedZeros body]
  | .unit functions => by
      rw [Node.unsignedZeros, emission, emission, unnamed?_unsignedZeros functions,
        exports_unsignedZeros functions, emissionOfAll_unsignedZeros functions]
  | .reference _ | .prototype _ | .bareExpression | .bareNode => rfl

theorem emissionOfAll_unsignedZeros : (nodes : List Node) →
    emissionOfAll (Node.unsignedZerosOfAll nodes) = emissionOfAll nodes
  | [] => rfl
  | node :: rest => by
      rw [Node.unsignedZerosOfAll, emissionOfAll, emissionOfAll, emission_unsignedZeros node,
        emissionOfAll_unsignedZeros rest]

end

end Wat

end ExprWasm
