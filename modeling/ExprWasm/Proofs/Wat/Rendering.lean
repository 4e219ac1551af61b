import ExprWasm.Proofs.Phrase.Shape
import ExprWasm.Proofs.Tree.Flatten
import ExprWasm.Wat.Sink

/-! The trees that are read from programs have instructions.

No phrase is read as a bare node, and all that stands below a unit are functions, which have names.
So the lines of such a tree are complete, and a sink without a bound takes them all. -/

set_option autoImplicit false

namespace ExprWasm.Tree.Expansion

theorem flattenAll_complete
    (expansion : Expansion) {pieces : List Piece}
    (complete : ∀ node, .node node ∈ pieces → (expansion.flatten node).failure = none) :
    (expansion.flattenAll pieces).failure = none := by
  have both {first second : Flattened} (firstComplete : first.failure = none)
      (secondComplete : second.failure = none) : (first.append second).failure = none := by
    rw [Flattened.append, firstComplete]
    exact secondComplete
  induction pieces with
  | nil => rw [flattenAll_nil]
  | cons piece rest inductionHypothesis =>
      have others := inductionHypothesis fun node member =>
        complete node (List.mem_cons_of_mem _ member)
      cases piece with
      | text value =>
          rw [flattenAll_text]
          exact both rfl others
      | node tree =>
          rw [flattenAll_node]
          exact both (complete tree (List.mem_cons_self ..)) others

end ExprWasm.Tree.Expansion

namespace ExprWasm.Wat

open ExprWasm.Tree (Node Piece Function unitOf)
open Phrase (Expression Body)

variable {named : String → Prop}

theorem mem_children_of_piece
    {node child : Node} {pieces : List Piece} (expanded : instructionPieces node = .ok pieces)
    (member : .node child ∈ pieces) : child ∈ node.children := by
  cases node with
  | bareExpression => cases expanded
  | bareNode => cases expanded
  | unit functions =>
      simp only [instructionPieces] at expanded
      cases exported : exportLines functions with
      | error failure =>
          rw [exported] at expanded
          cases expanded
      | ok exports =>
          rw [exported] at expanded
          cases expanded
          revert member
          simp [Node.children]
  | _ =>
      simp only [instructionPieces, Except.ok.injEq] at expanded
      subst expanded
      revert member
      simp [Node.children]

/-- The lines of a node are complete if those of its children are. -/
theorem lines_complete
    {node : Node} {pieces : List Piece} (expanded : instructionPieces node = .ok pieces)
    (complete : ∀ child ∈ node.children, (lines child).failure = none) :
    (lines node).failure = none := by
  have flattened := instructions.flatten_of_pieces expanded
  rw [lines, flattened]
  apply instructions.flattenAll_complete
  intro child member
  exact complete child (mem_children_of_piece expanded member)

theorem expression_complete {node : Node} (isExpression : Expression named node) :
    (lines node).failure = none := by
  induction isExpression with
  | number decimal => exact lines_complete rfl (List.forall_mem_nil _)
  | reference isName => exact lines_complete rfl (List.forall_mem_nil _)
  | call isName _ inductionHypothesis => exact lines_complete rfl inductionHypothesis
  | negated _ inner => exact lines_complete rfl (List.forall_mem_singleton.mpr inner)
  | binary isBinary _ _ left right =>
      exact lines_complete rfl <|
        List.forall_mem_cons.mpr ⟨left, List.forall_mem_singleton.mpr right⟩

theorem body_complete {node : Node} (isBody : Body named node) : (lines node).failure = none := by
  cases isBody with
  | expression isExpression => exact expression_complete isExpression
  | conditional first second third =>
      apply lines_complete rfl
      intro child member
      simp only [Node.children, List.mem_cons, List.not_mem_nil, or_false] at member
      rcases member with rfl | rfl | rfl
      · exact expression_complete first
      · exact expression_complete second
      · exact expression_complete third

theorem exportLines_functions (functions : List Function) :
    exportLines (functions.map Function.toNode) =
      .ok (functions.map fun function => exportLine function.name) := by
  induction functions with
  | nil => rfl
  | cons function rest inductionHypothesis =>
      rw [List.map_cons, exportLines, inductionHypothesis]
      rfl

/-- Functions have names, so that a unit of them is a module. -/
theorem pieces_unitOf (functions : List Function) :
    instructionPieces (unitOf functions) =
      .ok (.text "(module" :: (functions.map Function.toNode).map .node ++
        (functions.map fun function => exportLine function.name).map .text ++ [.text ")"]) := by
  rw [unitOf, instructionPieces, exportLines_functions]
  rfl

theorem unit_complete
    {functions : List Function} (bodies : ∀ function ∈ functions, Body named function.body) :
    (lines (unitOf functions)).failure = none := by
  apply lines_complete (pieces_unitOf functions)
  intro child member
  obtain ⟨function, inside, rfl⟩ := List.mem_map.mp member
  apply lines_complete rfl
  have head : (lines (.prototype function.prototype)).failure = none :=
    lines_complete rfl (List.forall_mem_nil _)
  have body := body_complete (bodies function inside)
  exact List.forall_mem_cons.mpr ⟨head, List.forall_mem_singleton.mpr body⟩

/-! ### Sinks without a bound -/

def terminated (texts : List String) : List String :=
  texts.map fun line => line ++ "\n"

theorem writeLines_unbounded (texts : List String) (writes : Array String) :
    Sink.writeLines { writes := writes } texts =
      (.ok (), { writes := writes ++ (terminated texts).toArray }) := by
  induction texts generalizing writes with
  | nil => simp [Sink.writeLines, terminated]
  | cons line rest inductionHypothesis =>
      have room : ¬ ({ writes := writes } : Sink).isFull = true := Bool.false_ne_true
      rw [Sink.writeLines, Sink.write, if_neg room]
      change Sink.writeLines { writes := writes.push (line ++ "\n") } rest = _
      rw [inductionHypothesis]
      simp [terminated]

/-- Such a sink takes the lines up to the first node without instructions, and only that node fails.
-/
theorem writeTree_unbounded (writes : Array String) (node : Node) :
    Sink.writeTree { writes := writes } node =
      ((lines node).failure.elim (.ok ()) .error,
        { writes := writes ++ (terminated (lines node).texts).toArray }) := by
  rw [Sink.writeTree, writeLines_unbounded]
  cases (lines node).failure with
  | none => rfl
  | some failure => rfl

section Complete

variable {node : Node} (complete : (lines node).failure = none)

include complete

theorem allLines_complete : allLines node = .ok (lines node).texts := by
  unfold allLines
  generalize lines node = emitted at complete ⊢
  obtain ⟨texts, failure⟩ := emitted
  subst complete
  rfl

theorem writeTree_complete (writes : Array String) :
    Sink.writeTree { writes := writes } node =
      (.ok (), { writes := writes ++ (terminated (lines node).texts).toArray }) := by
  rw [writeTree_unbounded, complete]
  rfl

theorem render_complete :
    render node = .ok (String.join (terminated (lines node).texts)) := by
  rw [render, writeTree_complete complete]
  simp [Sink.text]

end Complete

/-- The first line of a module opens it. -/
theorem lines_unit (functions : List Function) :
    ∃ rest, (lines (unitOf functions)).texts = "(module" :: rest := by
  have expanded : instructions.pieces (unitOf functions) = _ := pieces_unitOf functions
  rw [lines, instructions.flatten_of_pieces expanded, List.cons_append, List.cons_append,
    instructions.flattenAll_text]
  exact ⟨_, rfl⟩

end ExprWasm.Wat
