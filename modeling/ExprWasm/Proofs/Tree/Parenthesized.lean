import ExprWasm.Proofs.Tree.Printed

/-! The printing of trees as a plain recursion.

`parenthesized` puts the text of a tree together from the texts of the trees below it. The walk with
an explicit stack prints the same text for every tree, whatever kinds of node it is made of. -/

set_option autoImplicit false

namespace ExprWasm.Tree.Node

mutual

/-- A tree with parentheses around every operator and every conditional. A node that is no
expression is named by its kind, and nothing below it is printed. -/
def parenthesized : Node → String
  | number value => value.text
  | reference name => name
  | binary operator left right =>
      "(" ++ left.parenthesized ++ " " ++ operator.symbol ++ " " ++ right.parenthesized ++ ")"
  | unary operator operand => "(" ++ operator.symbol ++ operand.parenthesized ++ ")"
  | call callee arguments =>
      callee ++ "(" ++ ", ".intercalate (allParenthesized arguments) ++ ")"
  | conditional condition whenTrue whenFalse =>
      "(if " ++ condition.parenthesized ++ " then " ++ whenTrue.parenthesized ++ " else " ++
        whenFalse.parenthesized ++ ")"
  | node => "<" ++ node.kindName ++ ">"

def allParenthesized : List Node → List String
  | [] => []
  | node :: rest => node.parenthesized :: allParenthesized rest

end

theorem printed_of_pieces {node : Node} {text : String}
    (pieces : node.printedPieces.flatMap Piece.characters = text.toList) : node.printed = text := by
  rw [← String.toList_inj, printed_toList, pieces]

mutual

theorem printed_eq_parenthesized : (node : Node) → node.printed = node.parenthesized
  | number value => printed_of_pieces (List.append_nil _)
  | reference name => printed_of_pieces (List.append_nil _)
  | binary operator left right => by
      apply printed_of_pieces
      simp [printedPieces, Piece.characters, parenthesized, printed_eq_parenthesized left,
        printed_eq_parenthesized right]
  | unary operator operand => by
      apply printed_of_pieces
      simp [printedPieces, Piece.characters, parenthesized, printed_eq_parenthesized operand]
  | call callee arguments => by
      have between := argumentPieces_eq_parenthesized arguments
      apply printed_of_pieces
      simp [printedPieces, Piece.characters, parenthesized, between]
  | conditional condition whenTrue whenFalse => by
      apply printed_of_pieces
      simp [printedPieces, Piece.characters, parenthesized, printed_eq_parenthesized condition,
        printed_eq_parenthesized whenTrue, printed_eq_parenthesized whenFalse]
  | prototype head => printed_of_pieces (List.append_nil _)
  | function head body => printed_of_pieces (List.append_nil _)
  | unit functions => printed_of_pieces (List.append_nil _)
  | bareExpression => printed_of_pieces (List.append_nil _)
  | bareNode => printed_of_pieces (List.append_nil _)

theorem argumentPieces_eq_parenthesized : (arguments : List Node) →
    (argumentPieces arguments).flatMap Piece.characters =
      (", ".intercalate (allParenthesized arguments)).toList
  | [] => rfl
  | [argument] => by
      simp [argumentPieces, Piece.characters, allParenthesized, printed_eq_parenthesized argument,
        String.intercalate_singleton]
  | argument :: next :: rest => by
      have others := argumentPieces_eq_parenthesized (next :: rest)
      rw [allParenthesized] at others
      simp [argumentPieces, Piece.characters, allParenthesized, printed_eq_parenthesized argument,
        String.intercalate_cons_cons, others]

end

end ExprWasm.Tree.Node
