import ExprWasm.Proofs.Tree.Flatten
import ExprWasm.Tree.Printer

/-! The text of a tree is put together from the texts of the trees below it.

The printing of a tree has no failures, so that `Node.printed_toList` gives its characters one node
deep. -/

set_option autoImplicit false

namespace ExprWasm.Tree

open Number (Binary64)

theorem Expansion.printed_complete (found : List String) (stack : List Piece) :
    (printed.flattenAfter found stack).failure = none := by
  fun_induction flattenAfter printed found stack with
  | case1 found => rfl
  | case2 found text rest inductionHypothesis => exact inductionHypothesis
  | case3 found node rest failure failed => cases failed
  | case4 found node rest pieces expanded inductionHypothesis => exact inductionHypothesis

def Piece.characters : Piece → List Char
  | text value => value.toList
  | node tree => tree.printed.toList

theorem Expansion.printed_texts (pieces : List Piece) :
    (String.join (printed.flattenAll pieces).texts).toList =
      pieces.flatMap Piece.characters := by
  induction pieces with
  | nil =>
      rw [flattenAll_nil]
      rfl
  | cons piece rest inductionHypothesis =>
      rw [List.flatMap_cons, ← inductionHypothesis]
      cases piece with
      | text value =>
          rw [flattenAll_text, Flattened.append, String.join_append, String.toList_append]
          rfl
      | node tree =>
          rw [flattenAll_node, Flattened.append, flatten, printed_complete, String.join_append,
            String.toList_append]
          rfl

namespace Node

theorem printed_toList (node : Node) :
    node.printed.toList = node.printedPieces.flatMap Piece.characters := by
  have expanded : Expansion.printed.flatten node = _ := Expansion.printed.flatten_of_pieces rfl
  rw [printed, expanded, Expansion.printed_texts]

theorem printed_number (value : Binary64) :
    (number value).printed.toList = value.text.toList := by
  simp [printed_toList, printedPieces, Piece.characters]

theorem printed_reference (name : String) : (reference name).printed.toList = name.toList := by
  simp [printed_toList, printedPieces, Piece.characters]

theorem printed_unary (operator : Operator) (operand : Node) :
    (unary operator operand).printed.toList =
      '(' :: (operator.symbol.toList ++ operand.printed.toList ++ [')']) := by
  simp [printed_toList (unary ..), printedPieces, Piece.characters]

theorem printed_binary (operator : Operator) (left right : Node) :
    (binary operator left right).printed.toList =
      '(' :: (left.printed.toList ++ ' ' :: (operator.symbol.toList ++
        ' ' :: right.printed.toList) ++ [')']) := by
  simp [printed_toList (binary ..), printedPieces, Piece.characters]

theorem printed_call (callee : String) (arguments : List Node) :
    (call callee arguments).printed.toList =
      callee.toList ++ '(' :: ((argumentPieces arguments).flatMap Piece.characters ++ [')']) := by
  simp [printed_toList, printedPieces, Piece.characters]

theorem printed_conditional (condition whenTrue whenFalse : Node) :
    (conditional condition whenTrue whenFalse).printed.toList =
      '(' :: ("if".toList ++ ' ' :: (condition.printed.toList ++
        ' ' :: ("then".toList ++ ' ' :: (whenTrue.printed.toList ++
          ' ' :: ("else".toList ++ ' ' :: whenFalse.printed.toList)))) ++ [')']) := by
  simp [printed_toList (conditional ..), printedPieces, Piece.characters]

/-- A tree as the body of a definition, where a conditional stands without the parentheses around
it. -/
def bodyText : Node → String
  | conditional condition whenTrue whenFalse =>
      String.ofList ((conditional condition whenTrue whenFalse).printed.toList.drop 1).dropLast
  | node => node.printed

theorem bodyText_conditional (condition whenTrue whenFalse : Node) :
    (conditional condition whenTrue whenFalse).bodyText.toList =
      "if".toList ++ ' ' :: (condition.printed.toList ++
        ' ' :: ("then".toList ++ ' ' :: (whenTrue.printed.toList ++
          ' ' :: ("else".toList ++ ' ' :: whenFalse.printed.toList)))) := by
  rw [bodyText, printed_conditional, String.toList_ofList, List.drop_succ_cons, List.drop_zero,
    List.dropLast_concat]

/-! ### Numbers in a tree -/

mutual

def literals : Node → List Binary64
  | number value => [value]
  | binary _ left right => left.literals ++ right.literals
  | unary _ operand => operand.literals
  | call _ arguments => literalsOfAll arguments
  | conditional condition whenTrue whenFalse =>
      condition.literals ++ whenTrue.literals ++ whenFalse.literals
  | function _ body => body.literals
  | unit functions => literalsOfAll functions
  | _ => []

def literalsOfAll : List Node → List Binary64
  | [] => []
  | node :: rest => node.literals ++ literalsOfAll rest

end

theorem literals_subset {arguments : List Node} {argument : Node} (member : argument ∈ arguments) :
    ∀ value ∈ argument.literals, value ∈ literalsOfAll arguments := by
  intro value inside
  induction arguments with
  | nil => cases member
  | cons first rest inductionHypothesis =>
      rw [literalsOfAll]
      rcases List.mem_cons.mp member with rfl | later
      · exact List.mem_append_left _ inside
      · exact List.mem_append_right _ (inductionHypothesis later)

end Node

end ExprWasm.Tree
