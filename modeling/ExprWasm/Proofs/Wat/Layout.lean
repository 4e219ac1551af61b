import ExprWasm.Proofs.Compile.Names
import ExprWasm.Proofs.Text.Lines

/-! The lines of a module, and what can be told from them.

A module is a line that opens it, for each function a line that opens it, the lines of its body and
a line that closes it, then a line for each export, and a line that closes the module. No line of a
body looks like one of the others, and a name ends where a character comes that is in no name. So
the heads and bodies of the functions can be read off the lines again. -/

set_option autoImplicit false

namespace ExprWasm.Tree.Expansion

def pieceTexts (expansion : Expansion) : Piece → List String
  | .text value => [value]
  | .node tree => (expansion.flatten tree).texts

theorem flattenAll_texts
    (expansion : Expansion) {pieces : List Piece}
    (complete : ∀ node, .node node ∈ pieces → (expansion.flatten node).failure = none) :
    (expansion.flattenAll pieces).texts = pieces.flatMap expansion.pieceTexts := by
  have joined {first second : Flattened} (whole : first.failure = none) :
      (first.append second).texts = first.texts ++ second.texts := by
    rw [Flattened.append, whole]
  induction pieces with
  | nil => rw [flattenAll_nil, List.flatMap_nil]
  | cons piece rest inductionHypothesis =>
      have others := inductionHypothesis fun node member =>
        complete node (List.mem_cons_of_mem _ member)
      cases piece with
      | text value => rw [flattenAll_text, joined rfl, others, List.flatMap_cons, pieceTexts]
      | node tree =>
          rw [flattenAll_node, joined (complete tree (List.mem_cons_self ..)), others,
            List.flatMap_cons, pieceTexts]

end ExprWasm.Tree.Expansion

namespace ExprWasm.Wat

open ExprWasm.Tree (Node Piece Prototype Function unitOf)
open Phrase (Expression Body NamedHead)
open Compile (SpelledName)
open Source (isNameStart isNamePart)
open Text (Unbroken linesOf)

/-! ### Lines -/

structure FunctionText where
  head : Prototype
  body : List String
  deriving DecidableEq

namespace FunctionText

def ofFunction (function : Function) : FunctionText :=
  ⟨function.prototype, (lines function.body).texts⟩

def allLines (function : FunctionText) : List String :=
  headLine function.head :: (function.body ++ [")"])

end FunctionText

def moduleLines (functions : List FunctionText) : List String :=
  "(module" :: (functions.flatMap FunctionText.allLines ++
    (functions.map fun function => exportLine function.head.name) ++ [")"])

section Complete

variable {named : String → Prop}

theorem lines_texts
    {node : Node} {pieces : List Piece} (expanded : instructionPieces node = .ok pieces)
    (complete : ∀ child ∈ node.children, (lines child).failure = none) :
    (lines node).texts = pieces.flatMap instructions.pieceTexts := by
  rw [lines, instructions.flatten_of_pieces expanded, instructions.flattenAll_texts]
  intro child member
  exact complete child (mem_children_of_piece expanded member)

theorem function_children_complete
    {function : Function} (isBody : Body named function.body) :
    ∀ child ∈ function.toNode.children, (lines child).failure = none := by
  have head : (lines (.prototype function.prototype)).failure = none :=
    lines_complete rfl (List.forall_mem_nil _)
  exact List.forall_mem_cons.mpr ⟨head, List.forall_mem_singleton.mpr (body_complete isBody)⟩

theorem lines_function {function : Function} (isBody : Body named function.body) :
    (lines function.toNode).texts = (FunctionText.ofFunction function).allLines := by
  have head : (lines (.prototype function.prototype)).texts = [headLine function.prototype] := by
    rw [lines_texts rfl (List.forall_mem_nil _)]
    rfl
  have expanded : instructionPieces function.toNode =
      .ok [.node (.prototype function.prototype), .node function.body, .text ")"] := rfl
  rw [lines_texts expanded (function_children_complete isBody), List.flatMap_cons,
    List.flatMap_cons]
  change (lines (.prototype function.prototype)).texts ++ _ = _
  rw [head]
  rfl

theorem lines_functions
    {functions : List Function} (bodies : ∀ function ∈ functions, Body named function.body) :
    ((functions.map Function.toNode).map Piece.node).flatMap instructions.pieceTexts =
      (functions.map FunctionText.ofFunction).flatMap FunctionText.allLines := by
  induction functions with
  | nil => rfl
  | cons function functions inductionHypothesis =>
      rcases List.forall_mem_cons.mp bodies with ⟨isBody, others⟩
      have first : instructions.pieceTexts (.node function.toNode) =
          (FunctionText.ofFunction function).allLines := lines_function isBody
      rw [List.map_cons, List.map_cons, List.flatMap_cons, List.map_cons, List.flatMap_cons, first,
        inductionHypothesis others]

theorem lines_module
    {functions : List Function} (bodies : ∀ function ∈ functions, Body named function.body) :
    (lines (unitOf functions)).texts = moduleLines (functions.map FunctionText.ofFunction) := by
  have complete : ∀ child ∈ (unitOf functions).children, (lines child).failure = none := by
    intro child member
    rcases List.mem_map.mp member with ⟨function, inside, rfl⟩
    exact lines_complete rfl (function_children_complete (bodies function inside))
  have exports : ((functions.map fun function => exportLine function.name).map Piece.text).flatMap
      instructions.pieceTexts =
        (functions.map FunctionText.ofFunction).map fun function => exportLine function.head.name := by
    rw [List.flatMap_map, List.flatMap_map, List.map_map]
    exact List.map_eq_flatMap.symm
  rw [lines_texts (pieces_unitOf functions) complete, List.flatMap_append, List.flatMap_append,
    List.flatMap_cons, lines_functions bodies, exports]
  rfl

end Complete

/-! ### Lines of a body -/

def isPlain (c : Char) : Bool :=
  c ≠ '(' && c ≠ ')' && c ≠ '\n'

def Plain (text : String) : Prop :=
  text.toList.all isPlain = true

theorem Plain.append {first second : String} (before : Plain first) (after : Plain second) :
    Plain (first ++ second) := by
  rw [Plain, String.toList_append, List.all_append, before, after]
  rfl

theorem isPlain_of_namePart {c : Char} (part : isNamePart c = true) : isPlain c = true := by
  have other {special : Char} (none : isNamePart special = false) : c ≠ special := by
    rintro rfl
    rw [none] at part
    cases part
  have opening : c ≠ '(' := other rfl
  have closing : c ≠ ')' := other rfl
  have ending : c ≠ '\n' := other rfl
  simp only [isPlain, decide_not, decide_eq_false opening, decide_eq_false closing,
    decide_eq_false ending]
  rfl

theorem name_plain {name : String} (spelled : SpelledName name) : Plain name :=
  List.all_eq_true.mpr fun c member =>
    isPlain_of_namePart (Token.Word.nameParts spelled c member)

theorem decimal_plain (decimal : Number.Decimal) : decimal.text.all isPlain = true := by
  have digits {text : List Char} (all : ∀ c ∈ text, Number.Decimal.isDigit c = true) :
      text.all isPlain = true :=
    List.all_eq_true.mpr fun c member =>
      isPlain_of_namePart (Token.namePart_of_digit (all c member))
  rcases (Compile.decimal_word decimal).digits with ⟨whole, _, all, same | ⟨further, others, same⟩⟩
  · rw [same]
    exact digits all
  · rw [same, List.all_append, List.all_cons, digits all, digits others]
    rfl

theorem number_plain (value : Number.Binary64) : Plain value.text := by
  have sign : value.signText.all isPlain = true := by
    unfold Number.Binary64.signText
    split <;> rfl
  unfold Number.Binary64.text
  split
  · rfl
  · split
    · rw [Plain, String.toList_append, String.toList_ofList, List.all_append, sign]
      rfl
    · rw [Plain, String.toList_ofList, List.all_append, sign, decimal_plain]
      rfl

/-- The lines of instructions: they have no parentheses, except for one that opens a conditional. -/
def InstructionLine (line : String) : Prop :=
  Plain line ∨ line = "if (result f32)"

theorem builtin?_plain {callee line : String} (found : builtin? callee = some line) :
    Plain line := by
  unfold builtin? at found
  repeat' split at found
  all_goals cases found
  all_goals rfl

theorem callLine_plain {callee : String} (spelled : SpelledName callee) :
    Plain (callLine callee) := by
  unfold callLine
  cases found : builtin? callee with
  | none => exact Plain.append rfl (name_plain spelled)
  | some line => exact builtin?_plain found

theorem mnemonic_plain (operator : Tree.Operator) : Plain operator.mnemonic := by
  cases operator <;> rfl

/-- The lines of a node are lines of instructions if those of its children are. -/
theorem lines_instructions
    {node : Node} {pieces : List Piece} (expanded : instructionPieces node = .ok pieces)
    (complete : ∀ child ∈ node.children, (lines child).failure = none)
    (own : ∀ line, .text line ∈ pieces → InstructionLine line)
    (inner : ∀ child ∈ node.children, ∀ line ∈ (lines child).texts, InstructionLine line) :
    ∀ line ∈ (lines node).texts, InstructionLine line := by
  rw [lines_texts expanded complete]
  intro line member
  rcases List.mem_flatMap.mp member with ⟨piece, inside, within⟩
  cases piece with
  | text value =>
      rw [List.mem_singleton.mp within]
      exact own value inside
  | node child => exact inner child (mem_children_of_piece expanded inside) line within

theorem expression_instructions {node : Node} (isExpression : Expression SpelledName node) :
    ∀ line ∈ (lines node).texts, InstructionLine line := by
  induction isExpression with
  | number decimal =>
      refine lines_instructions rfl (List.forall_mem_nil _) ?_ (List.forall_mem_nil _)
      intro line member
      cases List.mem_singleton.mp member
      exact Or.inl (Plain.append rfl (number_plain _))
  | reference isName =>
      refine lines_instructions rfl (List.forall_mem_nil _) ?_ (List.forall_mem_nil _)
      intro line member
      cases List.mem_singleton.mp member
      exact Or.inl (Plain.append rfl (name_plain isName))
  | call isName areExpressions inductionHypothesis =>
      refine lines_instructions rfl
        (fun child member => expression_complete (areExpressions child member)) ?_ inductionHypothesis
      intro line member
      rcases List.mem_append.mp member with inside | last
      · rcases List.mem_map.mp inside with ⟨_, _, same⟩
        cases same
      · cases List.mem_singleton.mp last
        exact Or.inl (callLine_plain isName)
  | negated isOperand inner =>
      refine lines_instructions rfl
        (List.forall_mem_singleton.mpr (expression_complete isOperand)) ?_
        (List.forall_mem_singleton.mpr inner)
      intro line member
      simp only [List.mem_cons, List.not_mem_nil, reduceCtorEq, Piece.text.injEq, false_or,
        or_false] at member
      rw [member]
      exact Or.inl (mnemonic_plain _)
  | binary isBinary isLeft isRight left right =>
      refine lines_instructions rfl
        (List.forall_mem_cons.mpr ⟨expression_complete isLeft,
          List.forall_mem_singleton.mpr (expression_complete isRight)⟩) ?_
        (List.forall_mem_cons.mpr ⟨left, List.forall_mem_singleton.mpr right⟩)
      intro line member
      simp only [List.mem_cons, List.not_mem_nil, reduceCtorEq, Piece.text.injEq, false_or,
        or_false] at member
      rw [member]
      exact Or.inl (mnemonic_plain _)

theorem body_instructions {node : Node} (isBody : Body SpelledName node) :
    ∀ line ∈ (lines node).texts, InstructionLine line := by
  cases isBody with
  | expression isExpression => exact expression_instructions isExpression
  | conditional first second third =>
      refine lines_instructions rfl ?_ ?_ ?_
      · exact List.forall_mem_cons.mpr ⟨expression_complete first, List.forall_mem_cons.mpr
          ⟨expression_complete second, List.forall_mem_singleton.mpr (expression_complete third)⟩⟩
      · intro line member
        simp only [List.mem_cons, List.not_mem_nil, reduceCtorEq, Piece.text.injEq, false_or,
          or_false] at member
        rcases member with rfl | rfl | rfl
        · exact Or.inr rfl
        · exact Or.inl rfl
        · exact Or.inl rfl
      · exact List.forall_mem_cons.mpr ⟨expression_instructions first, List.forall_mem_cons.mpr
          ⟨expression_instructions second,
            List.forall_mem_singleton.mpr (expression_instructions third)⟩⟩

/-! ### Parentheses -/

def depthAfterOne? (c : Char) (depth : Nat) : Option Nat :=
  if c = '(' then some (depth + 1)
  else if c = ')' then
    match depth with
    | 0 => none
    | depth + 1 => some depth
  else some depth

def depthAfter? : Nat → List Char → Option Nat
  | depth, [] => some depth
  | depth, c :: rest => (depthAfterOne? c depth).bind fun reached => depthAfter? reached rest

def BalancedText (text : String) : Prop :=
  depthAfter? 0 text.toList = some 0

theorem depthAfter?_append (depth : Nat) (first second : List Char) :
    depthAfter? depth (first ++ second) =
      (depthAfter? depth first).bind fun reached => depthAfter? reached second := by
  induction first generalizing depth with
  | nil => rfl
  | cons c first inductionHypothesis =>
      rw [List.cons_append, depthAfter?, depthAfter?]
      cases depthAfterOne? c depth with
      | none => rfl
      | some reached => exact inductionHypothesis reached

def Nests (text : String) (opened closed : Nat) : Prop :=
  ∀ depth, depthAfter? (depth + opened) text.toList = some (depth + closed)

namespace Nests

theorem deeper
    {text : String} {opened closed : Nat} (nests : Nests text opened closed) (level : Nat) :
    Nests text (level + opened) (level + closed) := by
  intro depth
  rw [← Nat.add_assoc, ← Nat.add_assoc]
  exact nests (depth + level)

theorem append
    {first second : String} {opened between closed : Nat} (before : Nests first opened between)
    (after : Nests second between closed) : Nests (first ++ second) opened closed := by
  intro depth
  rw [String.toList_append, depthAfter?_append, before depth]
  exact after depth

theorem plain {text : String} (isPlain : Plain text) (level : Nat) : Nests text level level := by
  intro depth
  generalize depth + level = depth
  unfold Plain at isPlain
  generalize text.toList = characters at isPlain
  induction characters with
  | nil => rfl
  | cons c rest inductionHypothesis =>
      rw [List.all_cons, Bool.and_eq_true] at isPlain
      have same : depthAfterOne? c depth = some depth := by
        have apart := isPlain.1
        simp only [Wat.isPlain, Bool.and_eq_true, decide_eq_true_eq] at apart
        unfold depthAfterOne?
        rw [if_neg apart.1.1, if_neg apart.1.2]
      rw [depthAfter?, same]
      exact inductionHypothesis isPlain.2

theorem instruction {line : String} (isInstruction : InstructionLine line) (level : Nat) :
    Nests line level level := by
  rcases isInstruction with isPlain | rfl
  · exact plain isPlain level
  · intro depth
    rfl

theorem terminated {line : String} {opened closed : Nat} (nests : Nests line opened closed) :
    Nests (line ++ "\n") opened closed := by
  have ended : Nests "\n" closed closed := fun _ => rfl
  exact nests.append ended

theorem join
    {texts : List String} {level : Nat} (each : ∀ text ∈ texts, Nests text level level) :
    Nests (String.join texts) level level := by
  induction texts with
  | nil => exact fun _ => rfl
  | cons text texts inductionHypothesis =>
      rcases List.forall_mem_cons.mp each with ⟨first, others⟩
      rw [String.join_cons]
      exact first.append (inductionHypothesis others)

theorem lines
    {texts : List String} {level : Nat} (each : ∀ text ∈ texts, Nests text level level) :
    Nests (String.join (Wat.terminated texts)) level level := by
  apply join
  intro text member
  rcases List.mem_map.mp member with ⟨line, inside, rfl⟩
  exact (each line inside).terminated

theorem headLine {head : Prototype} (named : NamedHead SpelledName head) :
    Nests (Wat.headLine head) 0 1 := by
  have parameters : Nests
      (String.join (head.parameters.map fun name => " (param $" ++ name ++ " f32)")) 1 1 := by
    apply join
    intro text member
    rcases List.mem_map.mp member with ⟨name, inside, rfl⟩
    have opened : Nests " (param $" 1 2 := fun _ => rfl
    have closed : Nests " f32)" 2 1 := fun _ => rfl
    exact (opened.append (plain (name_plain (named.parameters name inside)) 2)).append closed
  have opened : Nests "(func $" 0 1 := fun _ => rfl
  have result : Nests " (result f32)" 1 1 := fun _ => rfl
  exact ((opened.append (plain (name_plain named.name) 1)).append parameters).append result

theorem exportLine {name : String} (spelled : SpelledName name) :
    Nests (Wat.exportLine name) 0 0 := by
  have isName := plain (name_plain spelled)
  have opened : Nests "(export \"" 0 1 := fun _ => rfl
  have between : Nests "\" (func $" 1 2 := fun _ => rfl
  have closed : Nests "))" 2 0 := fun _ => rfl
  exact (((opened.append (isName 1)).append between).append (isName 2)).append closed

end Nests

/-- The functions of a module that was read from a source: all names are spelled as names, and all
lines of the bodies are lines of instructions. -/
def WellSpelled (function : FunctionText) : Prop :=
  NamedHead SpelledName function.head ∧ ∀ line ∈ function.body, InstructionLine line

theorem function_nests {function : FunctionText} (spelled : WellSpelled function) :
    Nests (String.join (terminated function.allLines)) 0 0 := by
  have body : Nests (String.join (terminated function.body)) 1 1 :=
    Nests.lines fun line member => Nests.instruction (spelled.2 line member) 1
  have closed : Nests ")" 1 0 := fun _ => rfl
  have split : String.join (terminated function.allLines) =
      headLine function.head ++ "\n" ++ (String.join (terminated function.body) ++ (")" ++ "\n")) := by
    rw [FunctionText.allLines, terminated, List.map_cons, String.join_cons, List.map_append,
      String.join_append]
    rfl
  rw [split]
  exact (Nests.headLine spelled.1).terminated.append (body.append closed.terminated)

theorem module_nests
    {functions : List FunctionText} (spelled : ∀ function ∈ functions, WellSpelled function) :
    Nests (String.join (terminated (moduleLines functions))) 0 0 := by
  have inner : Nests (String.join (terminated (functions.flatMap FunctionText.allLines))) 1 1 := by
    induction functions with
    | nil => exact fun _ => rfl
    | cons function functions inductionHypothesis =>
        rcases List.forall_mem_cons.mp spelled with ⟨first, others⟩
        rw [List.flatMap_cons, terminated, List.map_append, String.join_append]
        exact ((function_nests first).deeper 1).append (inductionHypothesis others)
  have exports : Nests (String.join (terminated
      (functions.map fun function => exportLine function.head.name))) 1 1 := by
    apply Nests.lines
    intro line member
    rcases List.mem_map.mp member with ⟨function, inside, rfl⟩
    exact (Nests.exportLine (spelled function inside).1.name).deeper 1
  have opened : Nests "(module" 0 1 := fun _ => rfl
  have closed : Nests ")" 1 0 := fun _ => rfl
  have split : String.join (terminated (moduleLines functions)) =
      "(module" ++ "\n" ++
        (String.join (terminated (functions.flatMap FunctionText.allLines)) ++
          String.join (terminated (functions.map fun function => exportLine function.head.name)) ++
          (")" ++ "\n")) := by
    rw [moduleLines, terminated, List.map_cons, String.join_cons, List.map_append, List.map_append,
      String.join_append, String.join_append]
    rfl
  rw [split]
  exact opened.terminated.append ((inner.append exports).append closed.terminated)

/-! ### Functions from lines -/

def markedNames : List Char → List String
  | [] => []
  | c :: rest =>
      if c = '$' then String.ofList (rest.takeWhile isNamePart) :: markedNames rest
      else markedNames rest

def opensFunction (line : String) : Bool :=
  "(func $".toList.isPrefixOf line.toList

def headOf (line : String) : Prototype :=
  ⟨(markedNames line.toList).headD "", (markedNames line.toList).tail⟩

/-- The functions of a module from its lines: a head, and what comes after it up to the first line
that closes something. -/
def functionsOf : List String → List FunctionText
  | [] => []
  | line :: rest =>
      if opensFunction line then ⟨headOf line, rest.takeWhile (· ≠ ")")⟩ :: functionsOf rest
      else functionsOf rest

theorem markedNames_append {text : List Char} (unmarked : '$' ∉ text) (rest : List Char) :
    markedNames (text ++ rest) = markedNames rest := by
  induction text with
  | nil => rfl
  | cons c text inductionHypothesis =>
      have other : c ≠ '$' := fun same => unmarked (same ▸ List.mem_cons_self ..)
      have later : '$' ∉ text := fun member => unmarked (List.mem_cons_of_mem _ member)
      rw [List.cons_append, markedNames, if_neg other, inductionHypothesis later]

theorem markedNames_name
    {name : String} (spelled : SpelledName name) {rest : List Char}
    (ends : rest.takeWhile isNamePart = []) :
    markedNames ('$' :: (name.toList ++ rest)) = name :: markedNames rest := by
  have parts := Token.Word.nameParts spelled
  have unmarked : '$' ∉ name.toList := by
    intro member
    have part := parts '$' member
    cases part
  have taken : (name.toList ++ rest).takeWhile isNamePart = name.toList := by
    rw [List.takeWhile_append_of_pos parts, ends, List.append_nil]
  rw [markedNames, if_pos rfl, taken, String.ofList_toList, markedNames_append unmarked]

def headEnd (parameters : List String) : List Char :=
  (String.join (parameters.map fun name => " (param $" ++ name ++ " f32)")).toList ++
    " (result f32)".toList

theorem headEnd_cons (name : String) (parameters : List String) :
    headEnd (name :: parameters) =
      " (param ".toList ++ '$' :: (name.toList ++ (" f32)".toList ++ headEnd parameters)) := by
  have split : " (param $".toList = " (param ".toList ++ ['$'] := rfl
  simp only [headEnd, List.map_cons, String.join_cons, String.toList_append, List.append_assoc, split,
    List.cons_append, List.nil_append]

theorem headEnd_ends_name (parameters : List String) :
    (headEnd parameters).takeWhile isNamePart = [] := by
  cases parameters with
  | nil => rfl
  | cons name parameters =>
      rw [headEnd_cons]
      rfl

theorem markedNames_headEnd
    {parameters : List String} (spelled : ∀ name ∈ parameters, SpelledName name) :
    markedNames (headEnd parameters) = parameters := by
  induction parameters with
  | nil => rfl
  | cons name parameters inductionHypothesis =>
      rcases List.forall_mem_cons.mp spelled with ⟨first, others⟩
      have ends : (" f32)".toList ++ headEnd parameters).takeWhile isNamePart = [] := rfl
      rw [headEnd_cons, markedNames_append (by decide), markedNames_name first ends,
        markedNames_append (by decide), inductionHypothesis others]

theorem headOf_headLine {head : Prototype} (named : NamedHead SpelledName head) :
    headOf (headLine head) = head := by
  have split : (headLine head).toList =
      "(func ".toList ++ '$' :: (head.name.toList ++ headEnd head.parameters) := by
    have opening : "(func $".toList = "(func ".toList ++ ['$'] := rfl
    simp only [headLine, headEnd, String.toList_append, List.append_assoc, opening,
      List.cons_append, List.nil_append]
  have names : markedNames (headLine head).toList = head.name :: head.parameters := by
    rw [split, markedNames_append (by decide), markedNames_name named.name (headEnd_ends_name _),
      markedNames_headEnd named.parameters]
  rw [headOf, names]
  rfl

theorem opensFunction_headLine (head : Prototype) : opensFunction (headLine head) = true := by
  rw [opensFunction, List.isPrefixOf_iff_prefix]
  simp only [headLine, String.toList_append, List.append_assoc]
  exact List.prefix_append _ _

theorem not_opensFunction {line : String} (isInstruction : InstructionLine line) :
    opensFunction line = false := by
  rcases isInstruction with plain | rfl
  · cases opens : opensFunction line with
    | false => rfl
    | true =>
        rw [opensFunction, List.isPrefixOf_iff_prefix] at opens
        have member : '(' ∈ line.toList := opens.subset (by decide)
        have isPlain := List.all_eq_true.mp plain '(' member
        cases isPlain
  · rfl

theorem ne_closing {line : String} (isInstruction : InstructionLine line) : line ≠ ")" := by
  rintro rfl
  rcases isInstruction with plain | same
  · cases plain
  · exact absurd same (by decide)

theorem functionsOf_append
    {lines : List String} (others : ∀ line ∈ lines, opensFunction line = false)
    (rest : List String) : functionsOf (lines ++ rest) = functionsOf rest := by
  induction lines with
  | nil => rfl
  | cons line lines inductionHypothesis =>
      rcases List.forall_mem_cons.mp others with ⟨first, later⟩
      rw [List.cons_append, functionsOf, first]
      exact inductionHypothesis later

theorem functionsOf_function
    {function : FunctionText} (spelled : WellSpelled function) (rest : List String) :
    functionsOf (function.allLines ++ rest) = function :: functionsOf rest := by
  have inside : ∀ line ∈ function.body, decide (line ≠ ")") = true :=
    fun line member => decide_eq_true (ne_closing (spelled.2 line member))
  have body : (function.body ++ ")" :: rest).takeWhile (· ≠ ")") = function.body := by
    rw [List.takeWhile_append_of_pos inside, List.takeWhile_cons]
    exact List.append_nil _
  have closing : opensFunction ")" = false := rfl
  rw [FunctionText.allLines, List.cons_append, List.append_assoc, List.singleton_append, functionsOf,
    if_pos (opensFunction_headLine _), headOf_headLine spelled.1, body,
    functionsOf_append fun line member => not_opensFunction (spelled.2 line member), functionsOf,
    closing]
  rfl

theorem functionsOf_functions
    {functions : List FunctionText} (spelled : ∀ function ∈ functions, WellSpelled function)
    (rest : List String) :
    functionsOf (functions.flatMap FunctionText.allLines ++ rest) = functions ++ functionsOf rest := by
  induction functions with
  | nil => rfl
  | cons function functions inductionHypothesis =>
      rcases List.forall_mem_cons.mp spelled with ⟨first, others⟩
      rw [List.flatMap_cons, List.append_assoc, functionsOf_function first,
        inductionHypothesis others, List.cons_append]

theorem not_opensFunction_exportLine (name : String) : opensFunction (exportLine name) = false := by
  simp only [opensFunction, exportLine, String.toList_append, List.append_assoc]
  rfl

/-- The heads and bodies of the functions of a module can be told from its lines. -/
theorem functionsOf_moduleLines
    {functions : List FunctionText} (spelled : ∀ function ∈ functions, WellSpelled function) :
    functionsOf (moduleLines functions) = functions := by
  have exports : ∀ line ∈ functions.map fun function => exportLine function.head.name,
      opensFunction line = false := by
    intro line member
    rcases List.mem_map.mp member with ⟨function, _, rfl⟩
    exact not_opensFunction_exportLine _
  have opening : ∀ line ∈ ["(module"], opensFunction line = false :=
    List.forall_mem_singleton.mpr rfl
  have closing : functionsOf [")"] = [] := rfl
  rw [moduleLines, ← List.singleton_append, functionsOf_append opening, List.append_assoc,
    functionsOf_functions spelled, functionsOf_append exports, closing, List.append_nil]

/-! ### The text of a module -/

theorem Plain.unbroken {text : String} (plain : Plain text) : Unbroken text := by
  intro member
  have isPlain := List.all_eq_true.mp plain '\n' member
  cases isPlain

theorem headLine_unbroken {head : Prototype} (named : NamedHead SpelledName head) :
    Unbroken (headLine head) := by
  have name := (name_plain named.name).unbroken
  have parameters : Unbroken
      (String.join (head.parameters.map fun name => " (param $" ++ name ++ " f32)")) := by
    apply Unbroken.join
    intro text member
    rcases List.mem_map.mp member with ⟨parameter, inside, rfl⟩
    have isName := (name_plain (named.parameters parameter inside)).unbroken
    exact (Unbroken.append (by decide) isName).append (by decide)
  exact ((Unbroken.append (by decide) name).append parameters).append (by decide)

theorem exportLine_unbroken {name : String} (spelled : SpelledName name) :
    Unbroken (exportLine name) := by
  have isName := (name_plain spelled).unbroken
  exact (((Unbroken.append (by decide) isName).append (by decide)).append isName).append (by decide)

theorem InstructionLine.unbroken {line : String} (isInstruction : InstructionLine line) :
    Unbroken line := by
  rcases isInstruction with plain | rfl
  · exact plain.unbroken
  · decide

theorem moduleLines_unbroken
    {functions : List FunctionText} (spelled : ∀ function ∈ functions, WellSpelled function) :
    ∀ line ∈ moduleLines functions, Unbroken line := by
  intro line member
  simp only [moduleLines, List.mem_cons, List.mem_append, List.mem_flatMap, List.mem_map,
    List.not_mem_nil, or_false] at member
  rcases member with rfl | (⟨function, inside, within⟩ | ⟨function, inside, rfl⟩) | rfl
  · decide
  · rcases spelled function inside with ⟨named, instructions⟩
    simp only [FunctionText.allLines, List.mem_cons, List.mem_append, List.not_mem_nil,
      or_false] at within
    rcases within with rfl | isBody | rfl
    · exact headLine_unbroken named
    · exact (instructions line isBody).unbroken
    · decide
  · exact exportLine_unbroken (spelled function inside).1.name
  · decide

theorem linesOf_module
    {functions : List FunctionText} (spelled : ∀ function ∈ functions, WellSpelled function) :
    linesOf (String.join (terminated (moduleLines functions))) = moduleLines functions := by
  have split := Text.linesOf_join (moduleLines_unbroken spelled) ""
  rw [String.append_empty] at split
  exact split.trans (List.append_nil _)

end ExprWasm.Wat
