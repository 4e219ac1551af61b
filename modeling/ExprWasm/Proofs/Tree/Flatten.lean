import ExprWasm.Tree.Flatten

/-! The walk with an explicit stack puts together the texts of the pieces.

The texts of a list of pieces are those of its parts, one after the other up to the first failure,
and the texts of a node are those of its pieces. -/

set_option autoImplicit false

namespace ExprWasm.Tree

namespace Flattened

def append (first second : Flattened) : Flattened :=
  match first.failure with
  | none => ⟨first.texts ++ second.texts, second.failure⟩
  | some _ => first

@[simp]
theorem append_complete (first second : List String) (failure : Option Failure) :
    append ⟨first, none⟩ ⟨second, failure⟩ = ⟨first ++ second, failure⟩ := rfl

end Flattened

namespace Expansion

variable (expansion : Expansion)

def flattenAll (pieces : List Piece) : Flattened :=
  expansion.flattenAfter [] pieces

theorem flattenAfter_node_ok
    {node : Node} {pieces : List Piece} (expanded : expansion.pieces node = .ok pieces)
    (found : List String) (rest : List Piece) :
    expansion.flattenAfter found (.node node :: rest) =
      expansion.flattenAfter found (pieces ++ rest) := by
  rw [flattenAfter]
  split
  · rename_i failure failed
    rw [expanded] at failed
    cases failed
  · rename_i others again
    rw [expanded] at again
    cases again
    rfl

theorem flattenAfter_node_error
    {node : Node} {failure : Failure} (failed : expansion.pieces node = .error failure)
    (found : List String) (rest : List Piece) :
    expansion.flattenAfter found (.node node :: rest) = ⟨found.reverse, some failure⟩ := by
  rw [flattenAfter]
  split
  · rename_i other again
    rw [failed] at again
    cases again
    rfl
  · rename_i pieces expanded
    rw [failed] at expanded
    cases expanded

theorem flattenAfter_append_found
    (found base : List String) (stack : List Piece) :
    expansion.flattenAfter (found ++ base) stack =
      .append ⟨base.reverse, none⟩ (expansion.flattenAfter found stack) := by
  fun_induction flattenAfter expansion found stack with
  | case1 found =>
      rw [flattenAfter, List.reverse_append]
      rfl
  | case2 found text rest inductionHypothesis =>
      rw [flattenAfter]
      exact inductionHypothesis
  | case3 found node rest failure failed =>
      rw [flattenAfter_node_error expansion failed, List.reverse_append]
      rfl
  | case4 found node rest pieces expanded inductionHypothesis =>
      rw [flattenAfter_node_ok expansion expanded]
      exact inductionHypothesis

theorem flattenAfter_append
    (found : List String) (first second : List Piece) :
    expansion.flattenAfter found (first ++ second) =
      .append (expansion.flattenAfter found first) (expansion.flattenAll second) := by
  fun_induction flattenAfter expansion found first with
  | case1 found => exact flattenAfter_append_found expansion [] found second
  | case2 found text rest inductionHypothesis =>
      rw [List.cons_append, flattenAfter]
      exact inductionHypothesis
  | case3 found node rest failure failed =>
      rw [List.cons_append, flattenAfter_node_error expansion failed]
      rfl
  | case4 found node rest pieces expanded inductionHypothesis =>
      rw [List.cons_append, flattenAfter_node_ok expansion expanded, ← List.append_assoc]
      exact inductionHypothesis

/-! ### The recursive reading -/

theorem flattenAll_nil : expansion.flattenAll [] = ⟨[], none⟩ := by
  rw [flattenAll, flattenAfter]
  rfl

theorem flattenAll_text (text : String) (rest : List Piece) :
    expansion.flattenAll (.text text :: rest) =
      .append ⟨[text], none⟩ (expansion.flattenAll rest) := by
  rw [flattenAll, flattenAfter]
  exact flattenAfter_append_found expansion [] [text] rest

theorem flattenAll_node (node : Node) (rest : List Piece) :
    expansion.flattenAll (.node node :: rest) =
      .append (expansion.flatten node) (expansion.flattenAll rest) :=
  flattenAfter_append expansion [] [.node node] rest

theorem flattenAll_append (first second : List Piece) :
    expansion.flattenAll (first ++ second) =
      .append (expansion.flattenAll first) (expansion.flattenAll second) :=
  flattenAfter_append expansion [] first second

theorem flatten_of_pieces
    {node : Node} {pieces : List Piece} (expanded : expansion.pieces node = .ok pieces) :
    expansion.flatten node = expansion.flattenAll pieces := by
  rw [flatten, flattenAfter_node_ok expansion expanded, List.append_nil, flattenAll]

end Expansion

end ExprWasm.Tree
