import ExprWasm.Proofs.Tree.Flatten
import ExprWasm.Proofs.Wat.Machine
import ExprWasm.Wat.Instructions

/-! The lines of an expression push its value.

The value of an expression is found by recursion over its tree: operands before operators, from left
to right, and of the two branches of a conditional only the one that is chosen. Running the lines of
the expression has the same effects in the same order, and adds the value to the stack. -/

set_option autoImplicit false

namespace ExprWasm.Wat

universe u v

open ExprWasm.Tree (Node Piece Operator Flattened)

/-! ### Values of trees -/

mutual

/-- Negation is the only operator of unary nodes and occurs in no binary node, and calls have as
many arguments as their function has parameters. -/
def WellFormed (arity : String → Nat) : Node → Prop
  | .number _ => True
  | .reference _ => True
  | .binary operator left right =>
      operator ≠ .negate ∧ WellFormed arity left ∧ WellFormed arity right
  | .unary operator operand => operator = .negate ∧ WellFormed arity operand
  | .call callee arguments =>
      arguments.length = (if (builtin? callee).isSome then 1 else arity callee) ∧
        AllWellFormed arity arguments
  | .conditional condition whenTrue whenFalse =>
      WellFormed arity condition ∧ WellFormed arity whenTrue ∧ WellFormed arity whenFalse
  | _ => False

def AllWellFormed (arity : String → Nat) : List Node → Prop
  | [] => True
  | node :: rest => WellFormed arity node ∧ AllWellFormed arity rest

end

section Evaluation

variable {M : Type u → Type v} {V : Type u} [Monad M] (interpretation : Interpretation M V)

mutual

def evaluate : (node : Node) → WellFormed interpretation.arity node → M V
  | .number value, _ => interpretation.constant value.text
  | .reference name, _ => interpretation.fetch name
  | .binary operator left right, wellFormed => do
      let leftValue ← evaluate left wellFormed.2.1
      let rightValue ← evaluate right wellFormed.2.2
      interpretation.operation operator.mnemonic [leftValue, rightValue]
  | .unary operator operand, wellFormed => do
      let value ← evaluate operand wellFormed.2
      interpretation.operation operator.mnemonic [value]
  | .call callee arguments, wellFormed => do
      let values ← evaluateAll arguments wellFormed.2
      match builtin? callee with
      | some mnemonic => interpretation.operation mnemonic values
      | none => interpretation.call callee values
  | .conditional condition whenTrue whenFalse, wellFormed => do
      let value ← evaluate condition wellFormed.1
      if interpretation.truth value then evaluate whenTrue wellFormed.2.1
      else evaluate whenFalse wellFormed.2.2

def evaluateAll : (nodes : List Node) → AllWellFormed interpretation.arity nodes → M (List V)
  | [], _ => pure []
  | node :: rest, wellFormed => do
      let value ← evaluate node wellFormed.1
      let values ← evaluateAll rest wellFormed.2
      pure (value :: values)

end

end Evaluation

/-! ### Lines that push values -/

section Pushing

variable {M : Type u → Type v} {V : Type u} [Monad M]

structure Pushes
    (interpretation : Interpretation M V) (texts : List String) (action : M V) : Prop where
  balanced : Balanced texts
  runs : ∀ rest stack, interpretation.run (texts ++ rest) stack =
    action >>= fun value => interpretation.run rest (value :: stack)

/-- Running the lines performs an action and pushes its results, which are as many as `count`. -/
structure PushesAll
    (interpretation : Interpretation M V) (count : Nat) (texts : List String)
    (action : M (List V)) : Prop where
  balanced : Balanced texts
  runs : ∀ rest stack, interpretation.run (texts ++ rest) stack =
    action >>= fun values => interpretation.run rest (values.reverse ++ stack)
  -- In a monad that is not known, a fact about the results can only be said of what comes after.
  counted : ∀ {β : Type u} {first second : List V → M β},
    (∀ values, values.length = count → first values = second values) →
    action >>= first = action >>= second

variable {interpretation : Interpretation M V}

theorem Pushes.straight
    {line : String} {instruction : Instruction} {action : M V}
    (decoded : decode line = some instruction) (straight : instruction.isStraight = true)
    (produced : ∀ stack, interpretation.produce? stack instruction = some (action, stack)) :
    Pushes interpretation [line] action := by
  refine ⟨Balanced.straight decoded straight, ?_⟩
  intro rest stack
  exact interpretation.run_straight decoded (produced stack) rest

theorem Pushes.run_alone
    {texts : List String} {action : M V} (pushes : Pushes interpretation texts action)
    (stack : List V) :
    interpretation.run texts stack = action >>= fun value => pure (some (value :: stack)) := by
  have runs := pushes.runs [] stack
  simp only [List.append_nil, Interpretation.run_nil] at runs
  exact runs

variable [LawfulMonad M]

theorem PushesAll.nil : PushesAll interpretation 0 [] (pure []) := by
  refine ⟨Balanced.nil, ?_, ?_⟩
  · intro rest stack
    rw [pure_bind]
    rfl
  · intro β first second same
    rw [pure_bind, pure_bind]
    exact same [] rfl

theorem PushesAll.cons
    {texts others : List String} {action : M V} {actions : M (List V)} {count : Nat}
    (pushes : Pushes interpretation texts action)
    (pushesOthers : PushesAll interpretation count others actions) :
    PushesAll interpretation (count + 1) (texts ++ others)
      (do
        let value ← action
        let values ← actions
        pure (value :: values)) := by
  refine ⟨pushes.balanced.append pushesOthers.balanced, ?_, ?_⟩
  · intro rest stack
    simp only [List.append_assoc, pushes.runs, pushesOthers.runs, bind_assoc, pure_bind,
      List.reverse_cons, List.singleton_append]
  · intro β first second same
    simp only [bind_assoc, pure_bind]
    congr 1
    funext value
    apply pushesOthers.counted
    intro values sized
    exact same (value :: values) (congrArg (· + 1) sized)

/-- An instruction that takes all the values pushed before it. -/
theorem PushesAll.applied
    {texts : List String} {actions : M (List V)} {count : Nat}
    (pushes : PushesAll interpretation count texts actions)
    {line : String} {instruction : Instruction} (decoded : decode line = some instruction)
    (straight : instruction.isStraight = true) {operation : List V → M V}
    (produced : ∀ stack, interpretation.produce? stack instruction =
      (pop count stack).map fun popped => (operation popped.1, popped.2)) :
    Pushes interpretation (texts ++ [line]) (actions >>= operation) := by
  refine ⟨pushes.balanced.append (Balanced.straight decoded straight), ?_⟩
  intro rest stack
  rw [List.append_assoc, List.singleton_append, pushes.runs, bind_assoc]
  apply pushes.counted
  intro values sized
  have popped : pop count (values.reverse ++ stack) = some (values, stack) := by
    have length : values.reverse.length = count := by rw [List.length_reverse, sized]
    rw [pop, if_pos (by rw [List.length_append]; omega), ← length, List.take_left, List.drop_left,
      List.reverse_reverse]
  exact interpretation.run_straight decoded (by rw [produced, popped]; rfl) rest

theorem Pushes.conditional
    {condition whenTrue whenFalse : List String} {test first second : M V}
    (pushesTest : Pushes interpretation condition test)
    (pushesFirst : Pushes interpretation whenTrue first)
    (pushesSecond : Pushes interpretation whenFalse second) :
    Pushes interpretation
      (condition ++ "if (result f32)" :: (whenTrue ++ "else" :: (whenFalse ++ ["end"])))
      (do
        let value ← test
        if interpretation.truth value then first else second) := by
  refine ⟨pushesTest.balanced.append (.conditional pushesFirst.balanced pushesSecond.balanced), ?_⟩
  intro rest stack
  have block := block?_of_balanced pushesFirst.balanced pushesSecond.balanced rest
  simp only [List.append_assoc, List.cons_append, List.nil_append, pushesTest.runs, bind_assoc]
  congr 1
  funext value
  rw [interpretation.run_conditional block]
  -- A branch ends with its own lines: nothing follows them before the block is left.
  cases interpretation.truth value with
  | true =>
      simp only [Block.branch, if_true, pushesFirst.run_alone, bind_assoc, pure_bind]
  | false =>
      simp only [Block.branch, Bool.false_eq_true, if_false, pushesSecond.run_alone, bind_assoc,
        pure_bind]

/-! ### The lines of a tree -/

theorem operandCount?_of_builtin?
    {callee mnemonic : String} (found : builtin? callee = some mnemonic) :
    operandCount? mnemonic = some 1 := by
  unfold builtin? at found
  repeat' split at found
  all_goals cases found
  all_goals decide

theorem operandCount?_mnemonic (operator : Operator) :
    operandCount? operator.mnemonic = some (if operator = .negate then 1 else 2) := by
  cases operator <;> decide

open Tree.Expansion (flatten_of_pieces flattenAll_append flattenAll_node flattenAll_text
  flattenAll_nil)
open Tree.Flattened (append_complete)

mutual

theorem lines_push (interpretation : Interpretation M V) :
    (node : Node) → (wellFormed : WellFormed interpretation.arity node) →
    ∃ texts, instructions.flatten node = ⟨texts, none⟩ ∧
      Pushes interpretation texts (evaluate interpretation node wellFormed)
  | .number value, wellFormed => by
      refine ⟨["f32.const " ++ value.text], ?_, ?_⟩
      · rw [flatten_of_pieces instructions rfl, flattenAll_text, flattenAll_nil, append_complete,
          List.append_nil]
      · exact Pushes.straight (decode_constant _) rfl (fun _ => rfl)
  | .reference name, wellFormed => by
      refine ⟨["local.get $" ++ name], ?_, ?_⟩
      · rw [flatten_of_pieces instructions rfl, flattenAll_text, flattenAll_nil, append_complete,
          List.append_nil]
      · exact Pushes.straight (decode_fetch name) rfl (fun _ => rfl)
  | .binary operator left right, wellFormed => by
      obtain ⟨leftTexts, leftLines, leftPushes⟩ := lines_push interpretation left wellFormed.2.1
      obtain ⟨rightTexts, rightLines, rightPushes⟩ :=
        lines_push interpretation right wellFormed.2.2
      have decoded := decode_operation (operandCount?_mnemonic operator)
      rw [if_neg wellFormed.1] at decoded
      have pushes := (PushesAll.cons leftPushes (PushesAll.cons rightPushes PushesAll.nil)).applied
        decoded rfl (fun _ => rfl)
      refine ⟨leftTexts ++ (rightTexts ++ [operator.mnemonic]), ?_, ?_⟩
      · rw [flatten_of_pieces instructions rfl, flattenAll_node, flattenAll_node, flattenAll_text,
          flattenAll_nil, leftLines, rightLines]
        rfl
      · rw [evaluate]
        simpa only [List.append_assoc, List.nil_append, bind_assoc, pure_bind] using pushes
  | .unary operator operand, wellFormed => by
      obtain ⟨texts, operandLines, pushesOperand⟩ := lines_push interpretation operand wellFormed.2
      have decoded := decode_operation (operandCount?_mnemonic operator)
      rw [if_pos wellFormed.1] at decoded
      have pushes := (PushesAll.cons pushesOperand PushesAll.nil).applied
        decoded rfl (fun _ => rfl)
      refine ⟨texts ++ [operator.mnemonic], ?_, ?_⟩
      · rw [flatten_of_pieces instructions rfl, flattenAll_node, flattenAll_text, flattenAll_nil,
          operandLines]
        rfl
      · rw [evaluate]
        simpa only [List.append_assoc, List.nil_append, bind_assoc, pure_bind] using pushes
  | .call callee arguments, wellFormed => by
      obtain ⟨texts, argumentLines, pushesArguments⟩ :=
        all_push interpretation arguments wellFormed.2
      have counted := wellFormed.1
      refine ⟨texts ++ [callLine callee], ?_, ?_⟩
      · rw [flatten_of_pieces instructions rfl, flattenAll_append, argumentLines, flattenAll_text,
          flattenAll_nil]
        rfl
      · rw [evaluate]
        unfold callLine
        cases found : builtin? callee with
        | some mnemonic =>
            have single : arguments.length = 1 := by rw [counted, found]; rfl
            exact pushesArguments.applied (decode_operation (operandCount?_of_builtin? found)) rfl
              (fun _ => by rw [single]; rfl)
        | none =>
            have full : arguments.length = interpretation.arity callee := by
              rw [counted, found]
              rfl
            exact pushesArguments.applied (decode_call callee) rfl (fun _ => by rw [full]; rfl)
  | .conditional condition whenTrue whenFalse, wellFormed => by
      obtain ⟨testTexts, testLines, testPushes⟩ := lines_push interpretation condition wellFormed.1
      obtain ⟨trueTexts, trueLines, truePushes⟩ := lines_push interpretation whenTrue wellFormed.2.1
      obtain ⟨falseTexts, falseLines, falsePushes⟩ :=
        lines_push interpretation whenFalse wellFormed.2.2
      refine ⟨_, ?_, testPushes.conditional truePushes falsePushes⟩
      rw [flatten_of_pieces instructions rfl, flattenAll_node, flattenAll_text, flattenAll_node,
        flattenAll_text, flattenAll_node, flattenAll_text, flattenAll_nil, testLines, trueLines,
        falseLines]
      rfl
  | .prototype _, wellFormed => wellFormed.elim
  | .function .., wellFormed => wellFormed.elim
  | .unit _, wellFormed => wellFormed.elim
  | .bareExpression, wellFormed => wellFormed.elim
  | .bareNode, wellFormed => wellFormed.elim

theorem all_push (interpretation : Interpretation M V) :
    (nodes : List Node) → (wellFormed : AllWellFormed interpretation.arity nodes) →
    ∃ texts, instructions.flattenAll (nodes.map .node) = ⟨texts, none⟩ ∧
      PushesAll interpretation nodes.length texts (evaluateAll interpretation nodes wellFormed)
  | [], _ => ⟨[], instructions.flattenAll_nil, PushesAll.nil⟩
  | node :: rest, wellFormed => by
      obtain ⟨texts, nodeLines, pushes⟩ := lines_push interpretation node wellFormed.1
      obtain ⟨others, otherLines, pushesOthers⟩ := all_push interpretation rest wellFormed.2
      refine ⟨texts ++ others, ?_, PushesAll.cons pushes pushesOthers⟩
      rw [List.map_cons, flattenAll_node, nodeLines, otherLines, append_complete]

end

/-- Every well-formed expression has lines, and running them on any stack does what evaluating the
expression does and leaves exactly its value on top of the stack. -/
theorem lines_preserve_meaning
    (interpretation : Interpretation M V) (node : Node)
    (wellFormed : WellFormed interpretation.arity node) (stack : List V) :
    ∃ texts, allLines node = .ok texts ∧
      interpretation.run texts stack =
        evaluate interpretation node wellFormed >>= fun value => pure (some (value :: stack)) := by
  obtain ⟨texts, emitted, pushes⟩ := lines_push interpretation node wellFormed
  refine ⟨texts, ?_, ?_⟩
  · rw [allLines, lines, emitted]
  · exact pushes.run_alone stack

end Pushing

/-- An interpretation in which the order of operands matters and one of the locals cannot be
read. -/
def differences : Interpretation Option Int where
  constant numeral := some numeral.length
  fetch name := if name = "x" then some 2 else if name = "y" then some 5 else none
  operation mnemonic operands :=
    if mnemonic = "f32.neg" then some (-(operands.foldr (· + ·) 0)) else some (operands.foldr (· - ·) 0)
  call _ operands := some (operands.foldr (· - ·) 0)
  arity callee := if callee = "g" then 2 else 0
  truth value := value ≠ 0

/-- Conditionals inside a condition and inside a branch. The other branches have no value. -/
def nestedConditional : Node :=
  .conditional
    (.conditional (.reference "x") (.binary .less (.reference "x") (.reference "y"))
      (.reference "z"))
    (.conditional (.call "abs" [.reference "x"])
      (.call "g" [.unary .negate (.reference "x"), .reference "y"]) (.reference "z"))
    (.reference "z")

theorem nestedConditional_preserves_meaning :
    WellFormed differences.arity nestedConditional ∧
      ∃ texts, allLines nestedConditional = .ok texts ∧
        differences.run texts [7] = some (some [-7, 7]) := by
  have wellFormed : WellFormed differences.arity nestedConditional := by
    simp [nestedConditional, WellFormed, AllWellFormed, builtin?, differences]
  obtain ⟨texts, emitted, runs⟩ :=
    lines_preserve_meaning differences nestedConditional wellFormed [7]
  exact ⟨wellFormed, texts, emitted, runs⟩

end ExprWasm.Wat
