import ExprWasm.Number.Literal
import ExprWasm.Tree.Flatten

/-! The lines of a WebAssembly text module.

Operands come before the instruction that takes them, so that running the lines of an expression
leaves its value on the stack. A unit becomes a module: what stands below it in order, then an
export for each name of that. -/

set_option autoImplicit false

namespace ExprWasm.Wat

open ExprWasm.Tree (Node Piece Prototype Expansion Flattened)

def builtin? (callee : String) : Option String :=
  if callee = "sqrt" then some "f32.sqrt"
  else if callee = "ceil" then some "f32.ceil"
  else if callee = "floor" then some "f32.floor"
  else if callee = "trunc" then some "f32.trunc"
  else if callee = "nearest" then some "f32.nearest"
  else if callee = "abs" then some "f32.abs"
  else if callee = "neg" then some "f32.neg"
  else none

def callLine (callee : String) : String :=
  (builtin? callee).getD ("call $" ++ callee)

def headLine (head : Prototype) : String :=
  "(func $" ++ head.name ++
    String.join (head.parameters.map fun name => " (param $" ++ name ++ " f32)") ++ " (result f32)"

def exportLine (name : String) : String :=
  "(export \"" ++ name ++ "\" (func $" ++ name ++ "))"

/-- The lines that export the nodes below a unit. Their names are taken before anything is written,
and a node without a name stops this. -/
def exportLines : List Node → Except Failure (List String)
  | [] => .ok []
  | node :: rest =>
      match node.name? with
      | none => .error (.unnamedNode node.kindName)
      | some name => (exportLines rest).map (exportLine name :: ·)

def instructionPieces : Node → Except Failure (List Piece)
  | .number value => .ok [.text ("f32.const " ++ value.text)]
  | .reference name => .ok [.text ("local.get $" ++ name)]
  | .binary operator left right => .ok [.node left, .node right, .text operator.mnemonic]
  | .unary operator operand => .ok [.node operand, .text operator.mnemonic]
  | .call callee arguments => .ok (arguments.map .node ++ [.text (callLine callee)])
  | .conditional condition whenTrue whenFalse =>
      .ok
        [.node condition, .text "if (result f32)", .node whenTrue, .text "else", .node whenFalse,
          .text "end"]
  | .prototype head => .ok [.text (headLine head)]
  | .function head body => .ok [.node (.prototype head), .node body, .text ")"]
  | .unit functions =>
      (exportLines functions).map fun exports =>
        .text "(module" :: functions.map .node ++ exports.map .text ++ [.text ")"]
  | node => .error (.unemittable node.kindName)

theorem nodeCount_instructionPieces_lt
    (node : Node) (list : List Piece) (expanded : instructionPieces node = .ok list) :
    Piece.nodeCount list < node.count := by
  cases node with
  | unit functions =>
      simp only [instructionPieces] at expanded
      cases exported : exportLines functions with
      | error failure =>
          rw [exported] at expanded
          cases expanded
      | ok exports =>
          rw [exported] at expanded
          cases expanded
          simp [Piece.nodeCount, Piece.nodeCount_append, Piece.nodeCount_map_node,
            Piece.nodeCount_map_text, Node.count]
  | _ =>
      simp only [instructionPieces, Except.ok.injEq, reduceCtorEq] at expanded <;>
        subst expanded <;>
        simp [Piece.nodeCount, Piece.nodeCount_append, Piece.nodeCount_map_node, Node.count] <;>
        omega

def instructions : Expansion where
  pieces := instructionPieces
  shrinks := nodeCount_instructionPieces_lt

def lines (node : Node) : Flattened :=
  instructions.flatten node

def allLines (node : Node) : Except Failure (List String) :=
  match lines node with
  | ⟨texts, none⟩ => .ok texts
  | ⟨_, some failure⟩ => .error failure

end ExprWasm.Wat
