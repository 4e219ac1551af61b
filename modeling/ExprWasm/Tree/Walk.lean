import ExprWasm.Tree.Node

/-! The visit of every node of a tree, parents before children and from left to right. -/

set_option autoImplicit false

namespace ExprWasm.Tree.Node

mutual

/-- The kinds of the nodes in the order of the visit. Below a node of the kind `stopAt` nothing is
visited; it leaves the mark `stop` instead. -/
def walk (stopAt : Option String) : Node → List String
  | node@(binary _ left right) =>
      node.kindName ::
        if stopAt = some node.kindName then ["stop"] else left.walk stopAt ++ right.walk stopAt
  | node@(unary _ operand) =>
      node.kindName :: if stopAt = some node.kindName then ["stop"] else operand.walk stopAt
  | node@(call _ arguments) =>
      node.kindName :: if stopAt = some node.kindName then ["stop"] else walkAll stopAt arguments
  | node@(conditional condition whenTrue whenFalse) =>
      node.kindName ::
        if stopAt = some node.kindName then ["stop"]
        else condition.walk stopAt ++ whenTrue.walk stopAt ++ whenFalse.walk stopAt
  | node@(function head body) =>
      node.kindName ::
        if stopAt = some node.kindName then ["stop"]
        else
          (prototype head).kindName ::
            (if stopAt = some (prototype head).kindName then ["stop"] else []) ++ body.walk stopAt
  | node@(unit functions) =>
      node.kindName :: if stopAt = some node.kindName then ["stop"] else walkAll stopAt functions
  | node => node.kindName :: if stopAt = some node.kindName then ["stop"] else []

def walkAll (stopAt : Option String) : List Node → List String
  | [] => []
  | node :: rest => node.walk stopAt ++ walkAll stopAt rest

end

end ExprWasm.Tree.Node
