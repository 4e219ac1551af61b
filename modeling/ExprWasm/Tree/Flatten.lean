import ExprWasm.Tree.Node

/-! Texts from trees, by a walk with an explicit stack.

An expansion describes one node by pieces: finished texts, and nodes that are to be expanded in
their place. `flatten` expands until only texts are left, so that the depth of a tree costs entries
of a list and no nested calls. -/

set_option autoImplicit false

namespace ExprWasm.Tree

inductive Piece where
  | text (text : String)
  | node (tree : Node)

namespace Piece

def nodeCount : List Piece → Nat
  | [] => 0
  | text _ :: rest => nodeCount rest
  | node tree :: rest => tree.count + nodeCount rest

theorem nodeCount_append (first second : List Piece) :
    nodeCount (first ++ second) = nodeCount first + nodeCount second := by
  induction first with
  | nil => simp [nodeCount]
  | cons piece rest inductionHypothesis =>
      cases piece with
      | text value => simp only [List.cons_append, nodeCount, inductionHypothesis]
      | node value =>
          simp only [List.cons_append, nodeCount, inductionHypothesis]
          omega

theorem nodeCount_map_node (nodes : List Node) :
    nodeCount (nodes.map node) = Node.countAll nodes := by
  induction nodes with
  | nil => simp [nodeCount, Node.countAll]
  | cons first rest inductionHypothesis =>
      simp only [List.map_cons, nodeCount, Node.countAll, inductionHypothesis]

theorem nodeCount_map_text (texts : List String) : nodeCount (texts.map text) = 0 := by
  induction texts with
  | nil => simp [nodeCount]
  | cons first rest inductionHypothesis =>
      simp only [List.map_cons, nodeCount, inductionHypothesis]

end Piece

/-- A description of every node by pieces that hold fewer nodes than it has. -/
structure Expansion where
  pieces : Node → Except Failure (List Piece)
  shrinks : ∀ node list, pieces node = .ok list → Piece.nodeCount list < node.count

structure Flattened where
  texts : List String
  failure : Option Failure
  deriving DecidableEq

namespace Expansion

/-- Expands the pieces on a stack. The texts found before are in `found`, the last one first. -/
def flattenAfter (expansion : Expansion) (found : List String) : List Piece → Flattened
  | [] => ⟨found.reverse, none⟩
  | .text text :: rest => expansion.flattenAfter (text :: found) rest
  | .node node :: rest =>
      match _expanded : expansion.pieces node with
      | .error failure => ⟨found.reverse, some failure⟩
      | .ok pieces => expansion.flattenAfter found (pieces ++ rest)
termination_by stack => (Piece.nodeCount stack, stack.length)
decreasing_by
  · simp only [Piece.nodeCount, List.length_cons]
    exact Prod.Lex.right _ (by omega)
  · have fewer := expansion.shrinks node pieces _expanded
    simp only [Piece.nodeCount, Piece.nodeCount_append]
    exact Prod.Lex.left _ _ (by omega)

def flatten (expansion : Expansion) (node : Node) : Flattened :=
  expansion.flattenAfter [] [.node node]

end Expansion

end ExprWasm.Tree
