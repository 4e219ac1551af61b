import ExprWasm.Number.Binary64
import ExprWasm.Tree.Operator

/-! Trees of programs.

A tree can be put together from nodes of every kind; only the head of a function is always a
prototype. Trees that come from a program have functions below the unit, and expressions below the
functions; the two bare kinds do not occur in them. -/

set_option autoImplicit false

namespace ExprWasm.Tree

open Number (Binary64)

structure Prototype where
  name : String
  parameters : List String
  deriving DecidableEq

inductive Node where
  | number (value : Binary64)
  | reference (name : String)
  | binary (operator : Operator) (left right : Node)
  | unary (operator : Operator) (operand : Node)
  | call (callee : String) (arguments : List Node)
  | conditional (condition whenTrue whenFalse : Node)
  | prototype (prototype : Prototype)
  | function (prototype : Prototype) (body : Node)
  | unit (functions : List Node)
  | bareExpression
  | bareNode

namespace Node

def kindName : Node → String
  | number _ => "NumberLiteral"
  | reference _ => "VariableExpression"
  | binary .. => "BinaryExpression"
  | unary .. => "UnaryExpression"
  | call .. => "CallExpression"
  | conditional .. => "IfExpression"
  | prototype _ => "Prototype"
  | function .. => "Function"
  | unit _ => "TranslationUnit"
  | bareExpression => "Expression"
  | bareNode => "ASTNode"

def isExpression : Node → Bool
  | prototype _ | function .. | unit _ | bareNode => false
  | _ => true

def name? : Node → Option String
  | reference name => some name
  | prototype head | function head _ => some head.name
  | _ => none

def children : Node → List Node
  | binary _ left right => [left, right]
  | unary _ operand => [operand]
  | call _ arguments => arguments
  | conditional condition whenTrue whenFalse => [condition, whenTrue, whenFalse]
  | function head body => [prototype head, body]
  | unit functions => functions
  | _ => []

mutual

def count : Node → Nat
  | binary _ left right => left.count + right.count + 1
  | unary _ operand => operand.count + 1
  | call _ arguments => countAll arguments + 1
  | conditional condition whenTrue whenFalse =>
      condition.count + whenTrue.count + whenFalse.count + 1
  | function _ body => body.count + 2
  | unit functions => countAll functions + 1
  | _ => 1

def countAll : List Node → Nat
  | [] => 0
  | node :: rest => node.count + countAll rest

end

mutual

/-- Equality of trees, in which numbers are compared by value. -/
def sameTree : Node → Node → Bool
  | number left, number right => left.sameValue right
  | reference left, reference right => left == right
  | binary leftOperator leftLeft leftRight, binary rightOperator rightLeft rightRight =>
      leftOperator == rightOperator && leftLeft.sameTree rightLeft && leftRight.sameTree rightRight
  | unary leftOperator leftOperand, unary rightOperator rightOperand =>
      leftOperator == rightOperator && leftOperand.sameTree rightOperand
  | call leftCallee leftArguments, call rightCallee rightArguments =>
      leftCallee == rightCallee && sameTrees leftArguments rightArguments
  | conditional leftCondition leftTrue leftFalse,
    conditional rightCondition rightTrue rightFalse =>
      leftCondition.sameTree rightCondition && leftTrue.sameTree rightTrue &&
        leftFalse.sameTree rightFalse
  | prototype left, prototype right => left == right
  | function leftHead leftBody, function rightHead rightBody =>
      leftHead == rightHead && leftBody.sameTree rightBody
  | unit left, unit right => sameTrees left right
  | bareExpression, bareExpression => true
  | bareNode, bareNode => true
  | _, _ => false

def sameTrees : List Node → List Node → Bool
  | [], [] => true
  | left :: leftRest, right :: rightRest => left.sameTree right && sameTrees leftRest rightRest
  | _, _ => false

end

end Node

structure Function where
  prototype : Prototype
  body : Node

namespace Function

def name (function : Function) : String :=
  function.prototype.name

def toNode (function : Function) : Node :=
  .function function.prototype function.body

end Function

def unitOf (functions : List Function) : Node :=
  .unit (functions.map Function.toNode)

end ExprWasm.Tree
