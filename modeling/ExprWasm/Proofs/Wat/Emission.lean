import ExprWasm.Proofs.Tree.Flatten
import ExprWasm.Proofs.Tree.Parenthesized
import ExprWasm.Tree.Walk
import ExprWasm.Wat.Instructions

/-! The lines of a tree as a plain recursion.

`emission` goes through a tree by recursion, operands before the instruction that takes them. A bare
node has no instructions, and a unit none if it cannot be exported; there the recursion leaves a
mark and goes on. The walk with an explicit stack gives the lines up to the first mark and fails
there, and the visit of the whole tree, which has parents before children, comes to the same node
first. -/

set_option autoImplicit false

namespace ExprWasm.Wat

open ExprWasm.Tree (Node Piece Flattened)
open Tree.Expansion (flatten_of_pieces flattenAll_append flattenAll_node flattenAll_text
  flattenAll_nil)

/-! ### Nodes without lines -/

/-- The failure of the first of several nodes that has no name to be exported under. -/
def unnamed? (nodes : List Node) : Option Failure :=
  (nodes.find? fun node => node.name?.isNone).map fun node => .unnamedNode node.kindName

/-- What keeps a node from having lines, whatever stands below it. -/
def fault? : Node → Option Failure
  | .bareExpression => some (.unemittable "Expression")
  | .bareNode => some (.unemittable "ASTNode")
  | .unit functions => unnamed? functions
  | _ => none

def exports (nodes : List Node) : List String :=
  (nodes.filterMap Node.name?).map exportLine

theorem unnamed?_cons_of_name {node : Node} {name : String} (named : node.name? = some name)
    (rest : List Node) : unnamed? (node :: rest) = unnamed? rest := by
  simp only [unnamed?, List.find?_cons, named, Option.isNone_some]

theorem unnamed?_cons_of_none {node : Node} (nameless : node.name? = none) (rest : List Node) :
    unnamed? (node :: rest) = some (.unnamedNode node.kindName) := by
  simp only [unnamed?, List.find?_cons, nameless, Option.isNone_none, Option.map_some]

theorem exportLines_of_unnamed {nodes : List Node} {failure : Failure}
    (found : unnamed? nodes = some failure) : exportLines nodes = .error failure := by
  induction nodes with
  | nil => cases found
  | cons node rest inductionHypothesis =>
      cases named : node.name? with
      | none =>
          rw [unnamed?_cons_of_none named] at found
          cases found
          simp only [exportLines, named]
      | some name =>
          rw [unnamed?_cons_of_name named] at found
          simp only [exportLines, named, inductionHypothesis found, Except.map]

theorem exportLines_of_named {nodes : List Node} (named : unnamed? nodes = none) :
    exportLines nodes = .ok (exports nodes) := by
  induction nodes with
  | nil => rfl
  | cons node rest inductionHypothesis =>
      cases first : node.name? with
      | none =>
          rw [unnamed?_cons_of_none first] at named
          cases named
      | some name =>
          rw [unnamed?_cons_of_name first] at named
          simp only [exportLines, first, inductionHypothesis named, Except.map, exports,
            List.filterMap_cons, List.map_cons]

/-! ### The recursion -/

inductive Emitted where
  | line (text : String)
  | fault (failure : Failure)

mutual

/-- The lines of a tree, and in their places the failures of nodes that have none. -/
def emission : Node → List Emitted
  | .number value => [.line ("f32.const " ++ value.text)]
  | .reference name => [.line ("local.get $" ++ name)]
  | .binary operator left right => emission left ++ emission right ++ [.line operator.mnemonic]
  | .unary operator operand => emission operand ++ [.line operator.mnemonic]
  | .call callee arguments => emissionOfAll arguments ++ [.line (callLine callee)]
  | .conditional condition whenTrue whenFalse =>
      emission condition ++ [.line "if (result f32)"] ++ emission whenTrue ++ [.line "else"] ++
        emission whenFalse ++ [.line "end"]
  | .prototype head => [.line (headLine head)]
  | .function head body => [.line (headLine head)] ++ emission body ++ [.line ")"]
  | .unit functions =>
      -- The names are wanted before the first line.
      match unnamed? functions with
      | some failure => [.fault failure]
      | none =>
          [.line "(module"] ++ emissionOfAll functions ++ (exports functions).map .line ++
            [.line ")"]
  | .bareExpression => [.fault (.unemittable "Expression")]
  | .bareNode => [.fault (.unemittable "ASTNode")]

def emissionOfAll : List Node → List Emitted
  | [] => []
  | node :: rest => emission node ++ emissionOfAll rest

end

theorem emission_unit_of_unnamed {functions : List Node} {failure : Failure}
    (found : unnamed? functions = some failure) :
    emission (.unit functions) = [.fault failure] := by
  rw [emission, found]

theorem emission_unit_of_named {functions : List Node} (named : unnamed? functions = none) :
    emission (.unit functions) =
      [.line "(module"] ++ emissionOfAll functions ++ (exports functions).map .line ++
        [.line ")"] := by
  rw [emission, named]

/-! ### Up to the first mark -/

namespace Emitted

def upToFault : List Emitted → Flattened
  | [] => ⟨[], none⟩
  | line text :: rest => .append ⟨[text], none⟩ (upToFault rest)
  | fault failure :: _ => ⟨[], some failure⟩

def firstFault? : List Emitted → Option Failure
  | [] => none
  | line _ :: rest => firstFault? rest
  | fault failure :: _ => some failure

@[simp]
theorem firstFault?_append (first second : List Emitted) :
    firstFault? (first ++ second) = (firstFault? first).or (firstFault? second) := by
  induction first with
  | nil => rfl
  | cons emitted rest inductionHypothesis =>
      cases emitted with
      | line text => exact inductionHypothesis
      | fault failure => rfl

@[simp]
theorem firstFault?_lines (texts : List String) : firstFault? (texts.map line) = none := by
  induction texts with
  | nil => rfl
  | cons text rest inductionHypothesis => exact inductionHypothesis

theorem upToFault_append (first second : List Emitted) :
    upToFault (first ++ second) = .append (upToFault first) (upToFault second) := by
  induction first with
  | nil => rfl
  | cons emitted rest inductionHypothesis =>
      cases emitted with
      | line text =>
          rw [List.cons_append, upToFault, upToFault, inductionHypothesis]
          cases upToFault rest with
          | mk texts failure =>
              cases failure with
              | none => rfl
              | some failure => rfl
      | fault failure => rfl

theorem upToFault_lines (texts : List String) : upToFault (texts.map line) = ⟨texts, none⟩ := by
  induction texts with
  | nil => rfl
  | cons text rest inductionHypothesis =>
      rw [List.map_cons, upToFault, inductionHypothesis]
      rfl

end Emitted

open Emitted (upToFault upToFault_append upToFault_lines firstFault?)

/-! ### The stack and the recursion -/

theorem flattenAll_lines (texts : List String) :
    instructions.flattenAll (texts.map .text) = ⟨texts, none⟩ := by
  induction texts with
  | nil => exact flattenAll_nil instructions
  | cons text rest inductionHypothesis =>
      rw [List.map_cons, flattenAll_text, inductionHypothesis]
      rfl

theorem lines_of_error {node : Node} {failure : Failure}
    (failed : instructionPieces node = .error failure) : lines node = ⟨[], some failure⟩ := by
  have stops := instructions.flattenAfter_node_error failed [] []
  exact stops

mutual

theorem lines_eq_emission : (node : Node) → lines node = upToFault (emission node)
  | .number value => by
      rw [lines, flatten_of_pieces instructions rfl, flattenAll_text, flattenAll_nil]
      rfl
  | .reference name => by
      rw [lines, flatten_of_pieces instructions rfl, flattenAll_text, flattenAll_nil]
      rfl
  | .binary operator left right => by
      rw [lines, flatten_of_pieces instructions rfl, flattenAll_node, flattenAll_node,
        flattenAll_text, flattenAll_nil, emission, List.append_assoc, upToFault_append,
        upToFault_append, ← lines_eq_emission left, ← lines_eq_emission right]
      rfl
  | .unary operator operand => by
      rw [lines, flatten_of_pieces instructions rfl, flattenAll_node, flattenAll_text,
        flattenAll_nil, emission, upToFault_append, ← lines_eq_emission operand]
      rfl
  | .call callee arguments => by
      rw [lines, flatten_of_pieces instructions rfl, flattenAll_append, flattenAll_text,
        flattenAll_nil, emission, upToFault_append, ← flattenAll_eq_emission arguments]
      rfl
  | .conditional condition whenTrue whenFalse => by
      rw [lines, flatten_of_pieces instructions rfl, flattenAll_node, flattenAll_text,
        flattenAll_node, flattenAll_text, flattenAll_node, flattenAll_text, flattenAll_nil, emission]
      simp only [List.append_assoc, upToFault_append]
      rw [← lines_eq_emission condition, ← lines_eq_emission whenTrue,
        ← lines_eq_emission whenFalse]
      rfl
  | .prototype head => by
      rw [lines, flatten_of_pieces instructions rfl, flattenAll_text, flattenAll_nil]
      rfl
  | .function head body => by
      rw [lines, flatten_of_pieces instructions rfl, flattenAll_node, flattenAll_node,
        flattenAll_text, flattenAll_nil, emission]
      simp only [List.append_assoc, upToFault_append]
      rw [← lines_eq_emission body, flatten_of_pieces instructions rfl, flattenAll_text,
        flattenAll_nil]
      rfl
  | .unit functions => by
      cases found : unnamed? functions with
      | some failure =>
          rw [emission_unit_of_unnamed found]
          apply lines_of_error
          rw [instructionPieces, exportLines_of_unnamed found]
          rfl
      | none =>
          have expanded : instructions.pieces (.unit functions) = .ok (.text "(module" ::
              functions.map .node ++ (exports functions).map .text ++ [.text ")"]) := by
            change instructionPieces (.unit functions) = _
            rw [instructionPieces, exportLines_of_named found]
            rfl
          rw [lines, flatten_of_pieces instructions expanded, List.cons_append, List.cons_append,
            List.append_assoc, flattenAll_text, flattenAll_append, flattenAll_append,
            flattenAll_lines, flattenAll_text, flattenAll_nil, emission_unit_of_named found]
          simp only [List.append_assoc, upToFault_append, upToFault_lines]
          rw [← flattenAll_eq_emission functions]
          rfl
  | .bareExpression => lines_of_error rfl
  | .bareNode => lines_of_error rfl

theorem flattenAll_eq_emission : (nodes : List Node) →
    instructions.flattenAll (nodes.map .node) = upToFault (emissionOfAll nodes)
  | [] => flattenAll_nil instructions
  | node :: rest => by
      rw [List.map_cons, flattenAll_node, emissionOfAll, upToFault_append,
        ← flattenAll_eq_emission rest, ← lines_eq_emission node]
      rfl

end

/-! ### The stack and the visit -/

mutual

def visited : Node → List Node
  | node@(.binary _ left right) => node :: (visited left ++ visited right)
  | node@(.unary _ operand) => node :: visited operand
  | node@(.call _ arguments) => node :: visitedOfAll arguments
  | node@(.conditional condition whenTrue whenFalse) =>
      node :: (visited condition ++ visited whenTrue ++ visited whenFalse)
  | node@(.function head body) => node :: .prototype head :: visited body
  | node@(.unit functions) => node :: visitedOfAll functions
  | node => [node]

def visitedOfAll : List Node → List Node
  | [] => []
  | node :: rest => visited node ++ visitedOfAll rest

end

mutual

theorem walk_eq_visited : (node : Node) → node.walk none = (visited node).map Node.kindName
  | .binary operator left right => by
      simp [Node.walk, visited, walk_eq_visited left, walk_eq_visited right]
  | .unary operator operand => by simp [Node.walk, visited, walk_eq_visited operand]
  | .call callee arguments => by simp [Node.walk, visited, walkAll_eq_visited arguments]
  | .conditional condition whenTrue whenFalse => by
      simp [Node.walk, visited, walk_eq_visited condition, walk_eq_visited whenTrue,
        walk_eq_visited whenFalse]
  | .function head body => by simp [Node.walk, visited, walk_eq_visited body]
  | .unit functions => by simp [Node.walk, visited, walkAll_eq_visited functions]
  | .number _ | .reference _ | .prototype _ | .bareExpression | .bareNode => rfl

theorem walkAll_eq_visited : (nodes : List Node) →
    Node.walkAll none nodes = (visitedOfAll nodes).map Node.kindName
  | [] => rfl
  | node :: rest => by
      rw [Node.walkAll, visitedOfAll, List.map_append, walk_eq_visited node,
        walkAll_eq_visited rest]

end

mutual

/-- Recursion and visit come to the same mark first: what is wrong with a node is found before
anything below it. -/
theorem first_fault : (node : Node) →
    firstFault? (emission node) = (visited node).findSome? fault?
  | .binary operator left right => by
      simp [emission, visited, List.findSome?_cons, fault?, firstFault?, first_fault left,
        first_fault right]
  | .unary operator operand => by
      simp [emission, visited, List.findSome?_cons, fault?, firstFault?, first_fault operand]
  | .call callee arguments => by
      simp [emission, visited, List.findSome?_cons, fault?, firstFault?, first_fault_of_all arguments]
  | .conditional condition whenTrue whenFalse => by
      simp [emission, visited, List.findSome?_cons, fault?, firstFault?, first_fault condition,
        first_fault whenTrue, first_fault whenFalse]
  | .function head body => by
      simp [emission, visited, List.findSome?_cons, fault?, firstFault?, first_fault body]
  | .unit functions => by
      cases found : unnamed? functions with
      | some failure => simp [emission_unit_of_unnamed found, visited, fault?, firstFault?, found]
      | none =>
          simp [emission_unit_of_named found, visited, fault?, firstFault?, found,
            first_fault_of_all functions]
  | .number _ | .reference _ | .prototype _ | .bareExpression | .bareNode => rfl

theorem first_fault_of_all : (nodes : List Node) →
    firstFault? (emissionOfAll nodes) = (visitedOfAll nodes).findSome? fault?
  | [] => rfl
  | node :: rest => by
      rw [emissionOfAll, visitedOfAll, Emitted.firstFault?_append, List.findSome?_append,
        first_fault node, first_fault_of_all rest]

end

end ExprWasm.Wat
