import ExprWasm.Number.Literal
import ExprWasm.Tree.Flatten

/-! The outline of a tree for reading: one line for the unit and each function, and one for each
expression with all its parentheses. -/

set_option autoImplicit false

namespace ExprWasm.Tree

namespace Node

def argumentPieces : List Node → List Piece
  | [] => []
  | [argument] => [.node argument]
  | argument :: rest => .node argument :: .text ", " :: argumentPieces rest

/-- An expression as it is printed, one node deep. A node that is no expression is named by its
kind. -/
def printedPieces : Node → List Piece
  | number value => [.text value.text]
  | reference name => [.text name]
  | binary operator left right =>
      [.text "(", .node left, .text (" " ++ operator.symbol ++ " "), .node right, .text ")"]
  | unary operator operand =>
      [.text "(", .text operator.symbol, .node operand, .text ")"]
  | call callee arguments =>
      [.text callee, .text "("] ++ argumentPieces arguments ++ [.text ")"]
  | conditional condition whenTrue whenFalse =>
      [.text "(if ", .node condition, .text " then ", .node whenTrue, .text " else ",
        .node whenFalse, .text ")"]
  | node => [.text ("<" ++ node.kindName ++ ">")]

theorem nodeCount_argumentPieces (arguments : List Node) :
    Piece.nodeCount (argumentPieces arguments) = countAll arguments := by
  fun_induction argumentPieces arguments with
  | case1 => simp [Piece.nodeCount, countAll]
  | case2 argument => simp [Piece.nodeCount, countAll]
  | case3 argument rest _ inductionHypothesis =>
      simp only [Piece.nodeCount, countAll, inductionHypothesis]

theorem nodeCount_printedPieces_lt (node : Node) :
    Piece.nodeCount node.printedPieces < node.count := by
  cases node <;>
    simp [printedPieces, Piece.nodeCount, Piece.nodeCount_append, nodeCount_argumentPieces, count]
  omega

end Node

namespace Expansion

def printed : Expansion where
  pieces node := .ok node.printedPieces
  shrinks node list expanded := by
    simp only [Except.ok.injEq] at expanded
    subst expanded
    exact Node.nodeCount_printedPieces_lt node

end Expansion

namespace Node

def printed (node : Node) : String :=
  String.join (Expansion.printed.flatten node).texts

def indented (depth : Nat) (text : String) : String :=
  String.join (List.replicate depth "  ") ++ text

def functionLine (head : Prototype) : String :=
  "Function: " ++ head.name ++ "(" ++ ", ".intercalate head.parameters ++ ")"

mutual

/-- The lines of a tree at a given depth. A node that is neither unit, function nor expression has
none. -/
def outline (depth : Nat) : Node → List String
  | unit functions =>
      indented depth "TranslationUnit" :: outlineAll (depth + 1) functions
  | function head body =>
      [indented depth (functionLine head), indented (depth + 1) body.printed]
  | node => if node.isExpression then [indented depth node.printed] else []

def outlineAll (depth : Nat) : List Node → List String
  | [] => []
  | node :: rest => outline depth node ++ outlineAll depth rest

end

end Node

structure Printer where
  output : List String := []
  depth : Nat := 0

namespace Printer

def text (printer : Printer) : String :=
  "\n".intercalate printer.output

def emit (printer : Printer) (text : String) : Printer :=
  { printer with output := printer.output ++ [Node.indented printer.depth text] }

def deeper (printer : Printer) : Printer :=
  { printer with depth := printer.depth + 1 }

def shallower (printer : Printer) : Printer :=
  { printer with depth := printer.depth - 1 }

mutual

/-- Adds the lines of a tree to those collected before. What stands below a unit or a function is
written one step deeper. -/
def visit (printer : Printer) : Node → Printer
  | .unit functions => ((printer.emit "TranslationUnit").deeper.visitAll functions).shallower
  | .function head body =>
      ((printer.emit (Node.functionLine head)).deeper.emit body.printed).shallower
  | node => if node.isExpression then printer.emit node.printed else printer

def visitAll (printer : Printer) : List Node → Printer
  | [] => printer
  | node :: rest => (printer.visit node).visitAll rest

end

mutual

/-- A visit adds the lines of the tree at the depth of the printer, and comes back to that depth. -/
theorem visit_eq : (printer : Printer) → (node : Node) →
    printer.visit node = { printer with output := printer.output ++ node.outline printer.depth }
  | printer, .unit functions => by
      rw [visit, Node.outline, visitAll_eq]
      simp [emit, deeper, shallower]
  | printer, .function head body => by
      rw [visit, Node.outline]
      simp [emit, deeper, shallower]
  | printer, .prototype _ | printer, .bareNode => by
      change printer = { printer with output := printer.output ++ [] }
      rw [List.append_nil]
  | _, .number _ | _, .reference _ | _, .binary .. | _, .unary .. | _, .call ..
  | _, .conditional .. | _, .bareExpression => rfl

theorem visitAll_eq : (printer : Printer) → (nodes : List Node) →
    printer.visitAll nodes =
      { printer with output := printer.output ++ Node.outlineAll printer.depth nodes }
  | printer, [] => by
      rw [visitAll, Node.outlineAll, List.append_nil]
  | printer, node :: rest => by
      rw [visitAll, Node.outlineAll, visit_eq printer node, visitAll_eq, List.append_assoc]

end

def print (printer : Printer) (node : Node) : Printer :=
  visit { printer with output := [], depth := 0 } node

theorem print_eq (printer : Printer) (node : Node) :
    printer.print node = { output := node.outline 0 } :=
  visit_eq ..

/-- A visit that begins at depth zero adds to the output what a new printer prints. -/
theorem visit_of_level (output : List String) (node : Node) :
    visit { output := output } node = { output := output ++ (print {} node).output } := by
  rw [visit_eq, print_eq]

end Printer

end ExprWasm.Tree
