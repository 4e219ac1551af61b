import ExprWasm.Proofs.Compile.Origins
import ExprWasm.Proofs.Number.ReadBack
import ExprWasm.Proofs.Phrase.Bracketed
import ExprWasm.Proofs.Token.Written
import ExprWasm.Proofs.Tree.Printed

/-! Printing undoes parsing.

The printed text of an expression is divided into words again, which make a phrase with all its
parentheses, and the phrase is read as the expression. Names come back because each was one word of
the program, and numbers because the decimal that is written for one reads back as it. -/

set_option autoImplicit false

namespace ExprWasm.Compile

open Token (Kind Lexed Lexer Word Written)
open Phrase (Body Bodied Descent.definition Enclosed Expression Factored Findings Listed Names Rounds
  Stops)
open Number (Binary64 Decimal)
open ExprWasm.Tree (Node Operator Piece)

theorem decimal_word (decimal : Decimal) : Word .number decimal.text := by
  unfold Decimal.text
  split
  · exact Word.whole Nat.toDigits_ne_nil (Decimal.toDigits_digits _)
  · exact Word.fraction Nat.toDigits_ne_nil (Decimal.toDigits_digits _)
      (Decimal.paddedDigits_digits _ _)

/-- Every operator between two operands is written as a word that means it. -/
theorem operator_word {operator : Operator} (isBinary : operator ≠ .negate) :
    ∃ kind : Kind, Word kind operator.symbol.toList ∧ Operator.ofToken kind = .ok operator := by
  cases operator with
  | plus => exact ⟨.plus, Word.symbol (by decide), rfl⟩
  | minus => exact ⟨.minus, Word.symbol (by decide), rfl⟩
  | times => exact ⟨.star, Word.symbol (by decide), rfl⟩
  | divide => exact ⟨.slash, Word.symbol (by decide), rfl⟩
  | or => exact ⟨.bar, Word.symbol (by decide), rfl⟩
  | and => exact ⟨.ampersand, Word.symbol (by decide), rfl⟩
  | less => exact ⟨.less, Word.symbol (by decide), rfl⟩
  | greater => exact ⟨.greater, Word.symbol (by decide), rfl⟩
  | equal => exact ⟨.equal, Word.equal, rfl⟩
  | notEqual => exact ⟨.notEqual, Word.notEqual, rfl⟩
  | negate => exact absurd rfl isBinary

def SpelledName (name : String) : Prop :=
  Word .identifier name.toList

theorem SpelledName.written {name : String} (spelled : SpelledName name) (line : Int) :
    Written line name.toList [⟨.identifier, name, line⟩] := by
  have written : Written line name.toList _ := Written.word spelled
  rw [String.ofList_toList] at written
  exact written

/-! ### Expressions -/

def ReadsBack (line : Int) (node : Node) : Prop :=
  ∃ tokens, Written line node.printed.toList tokens ∧ Factored tokens node

namespace ReadsBack

variable {line : Int}

theorem number {decimal : Decimal} (finite : decimal.toBinary64.isFinite = true) :
    ReadsBack line (.number decimal.toBinary64) := by
  have unsigned : decimal.toBinary64.signText = [] := Binary64.nearest_signText _ _
  have again := Decimal.shortestDecimal_toBinary64 finite
  have text := Binary64.text_of_finite finite unsigned
  generalize decimal.toBinary64.shortestDecimal = written at again text
  have found : Decimal.read? (String.ofList written.text).toList = some written := by
    rw [String.toList_ofList, written.read?_text]
  rw [ReadsBack, Node.printed_number, text, String.toList_ofList, ← again]
  exact ⟨_, Written.word (decimal_word written), Factored.number rfl found⟩

theorem reference {name : String} (spelled : SpelledName name) :
    ReadsBack line (.reference name) := by
  rw [ReadsBack, Node.printed_reference]
  exact ⟨_, spelled.written line, Factored.reference rfl⟩

theorem of_enclosed
    {node : Node} {inner : List Char} {tokens : List Lexed}
    (printed : node.printed.toList = '(' :: (inner ++ [')'])) (written : Written line inner tokens)
    (enclosed : Enclosed tokens node) : ReadsBack line node := by
  rw [ReadsBack, printed]
  exact ⟨_, written.parenthesized, Factored.parenthesized rfl rfl enclosed⟩

theorem negated {node : Node} (readsBack : ReadsBack line node) :
    ReadsBack line (.unary .negate node) := by
  rcases readsBack with ⟨tokens, written, factored⟩
  have signed : Written line ('-' :: node.printed.toList) (⟨.minus, "-", line⟩ :: tokens) :=
    Written.symbol (by simp [Token.symbols]) (by decide) (by decide) written
  exact of_enclosed (Node.printed_unary .negate node) signed (factored.negated rfl)

theorem binary
    {operator : Operator} {left right : Node} (isBinary : operator ≠ .negate)
    (readsLeft : ReadsBack line left) (readsRight : ReadsBack line right) :
    ReadsBack line (.binary operator left right) := by
  rcases readsLeft with ⟨leftTokens, writtenLeft, factoredLeft⟩
  rcases readsRight with ⟨rightTokens, writtenRight, factoredRight⟩
  rcases operator_word isBinary with ⟨kind, isWord, meant⟩
  have later := (Written.word isWord).spaced writtenRight factoredRight.opens.ne_nil
  have all := writtenLeft.spaced later (List.cons_ne_nil _ _)
  exact of_enclosed (Node.printed_binary operator left right) all <|
    factoredLeft.binary factoredRight meant

theorem arguments
    {nodes : List Node} (nonempty : nodes ≠ []) (each : ∀ node ∈ nodes, ReadsBack line node) :
    ∃ tokens, Written line ((Node.argumentPieces nodes).flatMap Piece.characters) tokens ∧
      Listed tokens nodes := by
  fun_induction Node.argumentPieces nodes with
  | case1 => exact absurd rfl nonempty
  | case2 node =>
      rcases each node (List.mem_cons_self ..) with ⟨tokens, written, factored⟩
      rw [List.flatMap_singleton]
      exact ⟨tokens, written, Listed.single factored⟩
  | case3 node rest more inductionHypothesis =>
      rcases each node (List.mem_cons_self ..) with ⟨tokens, written, factored⟩
      rcases inductionHypothesis more fun other member => each other (List.mem_cons_of_mem _ member)
        with ⟨others, writtenOthers, listed⟩
      have further : Written line (',' :: ' ' :: (Node.argumentPieces rest).flatMap Piece.characters)
          (⟨.comma, ",", line⟩ :: others) :=
        Written.symbol (by decide) (by decide) (by decide) (writtenOthers.blank listed.opens.ne_nil)
      exact ⟨_, written.append rfl further, Listed.cons factored rfl listed⟩

theorem call
    {callee : String} {nodes : List Node} (spelled : SpelledName callee)
    (each : ∀ node ∈ nodes, ReadsBack line node) : ReadsBack line (.call callee nodes) := by
  rw [ReadsBack, Node.printed_call]
  cases nodes with
  | nil =>
      have written := (spelled.written line).append rfl Written.nil.parenthesized
      exact ⟨_, written, Factored.emptyCall rfl rfl rfl⟩
  | cons node rest =>
      rcases arguments (List.cons_ne_nil node rest) each with ⟨tokens, written, listed⟩
      have all := (spelled.written line).append rfl written.parenthesized
      exact ⟨_, all, Factored.call rfl rfl rfl listed⟩

/-- An expression of a program reads back if its numbers are finite. -/
theorem of_expression
    {node : Node} (isExpression : Expression SpelledName node)
    (finite : ∀ value ∈ node.literals, value.isFinite = true) : ReadsBack line node := by
  induction isExpression with
  | number decimal => exact number (finite _ (List.mem_singleton_self _))
  | reference spelled => exact reference spelled
  | call spelled _ inductionHypothesis =>
      apply call spelled
      intro argument member
      apply inductionHypothesis argument member
      intro value inside
      exact finite value (Node.literals_subset member value inside)
  | negated _ inductionHypothesis => exact negated (inductionHypothesis finite)
  | binary isBinary _ _ inductionLeft inductionRight =>
      have split := List.forall_mem_append.mp finite
      exact binary isBinary (inductionLeft split.1) (inductionRight split.2)

end ReadsBack

/-! ### Bodies and definitions -/

theorem bodyText_of_expression {named : String → Prop} {node : Node}
    (isExpression : Expression named node) : node.bodyText = node.printed := by
  cases isExpression <;> rfl

theorem body_reads_back
    {node : Node} (isBody : Body SpelledName node)
    (finite : ∀ value ∈ node.literals, value.isFinite = true) (line : Int) :
    ∃ tokens, Written line node.bodyText.toList tokens ∧ tokens ≠ [] ∧ Bodied tokens node := by
  cases isBody with
  | expression isExpression =>
      rcases ReadsBack.of_expression isExpression finite with ⟨tokens, written, factored⟩
      rw [bodyText_of_expression isExpression]
      exact ⟨tokens, written, factored.opens.ne_nil, factored.bodied⟩
  | conditional first second third =>
      have split := List.forall_mem_append.mp finite
      have splitFirst := List.forall_mem_append.mp split.1
      rcases ReadsBack.of_expression first splitFirst.1 with
        ⟨condition, writtenCondition, factoredCondition⟩
      rcases ReadsBack.of_expression second splitFirst.2 with ⟨whenTrue, writtenTrue, factoredTrue⟩
      rcases ReadsBack.of_expression third split.2 with ⟨whenFalse, writtenFalse, factoredFalse⟩
      have fromElse : Written line ("else".toList ++ _) (⟨.elseWord, "else", line⟩ :: _) :=
        Written.keyword (by decide) writtenFalse factoredFalse.opens.ne_nil
      have fromTrue := writtenTrue.spaced fromElse (List.cons_ne_nil _ _)
      have fromThen : Written line ("then".toList ++ _) (⟨.thenWord, "then", line⟩ :: _) :=
        Written.keyword (by decide) fromTrue (factoredTrue.opens.append _).ne_nil
      have fromCondition := writtenCondition.spaced fromThen (List.cons_ne_nil _ _)
      have all : Written line ("if".toList ++ _) (⟨.ifWord, "if", line⟩ :: _) :=
        Written.keyword (by decide) fromCondition (factoredCondition.opens.append _).ne_nil
      rw [Node.bodyText_conditional]
      exact ⟨_, all, List.cons_ne_nil _ _,
        Bodied.conditional factoredCondition factoredTrue factoredFalse rfl rfl rfl⟩

theorem spelled_f : SpelledName "f" := by
  have free : ∀ kind, ("f", kind) ∉ Token.keywords := by
    intro kind
    simp [Token.keywords]
  have isWord : Word .identifier ['f'] := Word.name rfl (List.forall_mem_nil _) free
  exact isWord

theorem definition_written
    {text : List Char} {tokens : List Lexed} {line : Int} (written : Written line text tokens)
    (nonempty : tokens ≠ []) :
    Written line ("def f() ".toList ++ text)
      (⟨.define, "def", line⟩ :: ⟨.identifier, "f", line⟩ :: ⟨.leftParenthesis, "(", line⟩ ::
        ⟨.rightParenthesis, ")", line⟩ :: tokens) := by
  have head := (spelled_f.written line).append rfl Written.nil.parenthesized
  have headed := head.spaced written nonempty
  have all : Written line ("def".toList ++ _) (⟨.define, "def", line⟩ :: _) :=
    Written.keyword (by decide) headed (List.cons_ne_nil _ _)
  exact all

theorem parse_bodied
    {text : String} {node : Node} {tokens : List Lexed} (written : Written 1 text.toList tokens)
    (nonempty : tokens ≠ []) (bodied : Bodied tokens node) :
    (parse (Source.ofText Source.standardChunkSize ("def f() " ++ text ++ ";"))).outcome =
      .ok ⟨[⟨⟨"f", []⟩, node⟩], []⟩ := by
  have stops : Stops (⟨.semicolon, ";", 1⟩ : Lexed).kind := ⟨rfl, by decide⟩
  have defined : Descent.definition (⟨.identifier, "f", 1⟩ :: ⟨.leftParenthesis, "(", 1⟩ ::
      ⟨.rightParenthesis, ")", 1⟩ :: (tokens ++ ⟨.semicolon, ";", 1⟩ :: [ending 1])) =
        .accepted ⟨⟨"f", []⟩, node⟩ (⟨.semicolon, ";", 1⟩ :: [ending 1]) :=
    bodied.definition rfl rfl rfl stops _
  have whole := definition_written written nonempty
  rw [← String.toList_append] at whole
  refine @parse_of_finishes _ _ _ whole.finishes (Findings.define {} ⟨⟨"f", []⟩, node⟩) ?_
  rw [List.append_assoc]
  exact Rounds.definition rfl rfl defined {}

/-- A text that is read gives a program whose functions with finite numbers can be printed: the
printed body, as the body of a definition of its own, is read without a diagnostic and is the same
tree. -/
theorem parse_printed_body (text : String) :
    ∃ program,
      (parse (Source.ofText Source.standardChunkSize text)).outcome = .ok program ∧
      ∀ function ∈ program.functions,
        (∀ value ∈ function.body.literals, value.isFinite = true) →
        (parse (Source.ofText Source.standardChunkSize
            ("def f() " ++ function.body.bodyText ++ ";"))).outcome =
          .ok ⟨[⟨⟨"f", []⟩, function.body⟩], []⟩ := by
  rcases Lexer.exists_finishes_ofText text with ⟨tokens, line, finishes⟩
  have names : Names SpelledName tokens := by
    have reading := finishes
    rw [Lexer.ofSource_ofText] at reading
    intro token member isName
    have isWord := reading.laidOut.words token member
    rw [isName] at isWord
    exact isWord
  rcases exists_program finishes names with ⟨program, parsed, bodies⟩
  refine ⟨program, parsed, ?_⟩
  intro function member finite
  rcases body_reads_back (bodies function member) finite 1 with
    ⟨bodyTokens, written, nonempty, bodied⟩
  exact parse_bodied written nonempty bodied

end ExprWasm.Compile
