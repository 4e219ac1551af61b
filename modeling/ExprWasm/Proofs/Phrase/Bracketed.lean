import ExprWasm.Proofs.Phrase.Recognition

/-! Phrases with all their parentheses.

Where every operator stands with its operands between parentheses of its own, neither precedence nor
the reach of a minus sign matters: the phrase is a factor, and it is read as the tree that its
parentheses show. -/

set_option autoImplicit false

namespace ExprWasm.Phrase

open Token (Kind Lexed)
open ExprWasm.Tree (Node Operator)
open Number (Decimal)

def Opened (tokens : List Lexed) : Prop :=
  ∃ first others, tokens = first :: others ∧ opensExpression first.kind = true

namespace Opened

variable {tokens : List Lexed}

theorem cons {token : Lexed} (opens : opensExpression token.kind = true) (rest : List Lexed) :
    Opened (token :: rest) :=
  ⟨token, rest, rfl, opens⟩

theorem ne_nil (opened : Opened tokens) : tokens ≠ [] := by
  rcases opened with ⟨first, others, rfl, _⟩
  exact List.cons_ne_nil _ _

theorem append (opened : Opened tokens) (more : List Lexed) : Opened (tokens ++ more) := by
  rcases opened with ⟨first, others, rfl, opens⟩
  exact cons opens (others ++ more)

end Opened

structure Factored (tokens : List Lexed) (node : Node) : Prop where
  opens : Opened tokens
  taken : ∀ next rest, next.kind ≠ .leftParenthesis →
    (Descent.factor (tokens ++ next :: rest)).outcome = .accepted node (next :: rest)

def Enclosed (tokens : List Lexed) (node : Node) : Prop :=
  ∀ closing rest, closing.kind = .rightParenthesis →
    Descent.expression (tokens ++ closing :: rest) = .accepted node (closing :: rest)

theorem stops_of_closing {token : Lexed} (closes : token.kind = .rightParenthesis) :
    Stops token.kind := by
  rw [closes]
  exact ⟨rfl, by decide⟩

theorem binds_of_ofToken {kind : Kind} {operator : Operator}
    (meant : Operator.ofToken kind = .ok operator) : kind.precedence ≠ 0 := by
  cases kind with
  | plus | minus | star | slash | bar | ampersand | less | greater | equal | notEqual =>
      exact Nat.succ_ne_zero _
  | _ => cases meant

theorem nothing_pending : (([] : List Pending).map Pending.tier).Sublist Tier.all :=
  List.nil_sublist Tier.all

theorem expression_of_factor
    {tokens rest : List Lexed} {node : Node} {next : Lexed}
    (taken : (Descent.factor tokens).outcome = .accepted node (next :: rest))
    (foreign : next.kind.precedence = 0) :
    Descent.expression tokens = .accepted node (next :: rest) := by
  have ends := Descent.resume_of_foreign nothing_pending foreign node rest
  rw [Descent.expression_eq_resume, taken, Outcome.andThen_accepted]
  exact ends.1

namespace Factored

variable {tokens : List Lexed} {node : Node}

theorem expression (factored : Factored tokens node) {next : Lexed} (stops : Stops next.kind)
    (rest : List Lexed) :
    Descent.expression (tokens ++ next :: rest) = .accepted node (next :: rest) :=
  expression_of_factor (factored.taken next rest stops.unopened) stops.foreign

theorem number
    {token : Lexed} {decimal : Decimal} (isNumber : token.kind = .number)
    (found : Decimal.read? token.lexeme.toList = some decimal) :
    Factored [token] (.number decimal.toBinary64) where
  opens := Opened.cons (by rw [isNumber]; rfl) []
  taken next rest _ := by
    rw [List.singleton_append, Descent.outcome_factor_cons, isNumber]
    simp only [numeral, found]

theorem reference {token : Lexed} (isName : token.kind = .identifier) :
    Factored [token] (.reference token.lexeme) where
  opens := Opened.cons (by rw [isName]; rfl) []
  taken next rest unopened := by
    rw [List.singleton_append, Descent.outcome_factor_cons, isName]
    simp only [Descent.outcome_named, if_neg unopened]

theorem parenthesized
    {opening closing : Lexed} (isOpening : opening.kind = .leftParenthesis)
    (isClosing : closing.kind = .rightParenthesis) (enclosed : Enclosed tokens node) :
    Factored (opening :: (tokens ++ [closing])) node where
  opens := Opened.cons (by rw [isOpening]; rfl) _
  taken next rest _ := by
    rw [List.cons_append, List.append_assoc, List.singleton_append, Descent.outcome_factor_cons,
      isOpening]
    simp only [enclosed closing (next :: rest) isClosing, Outcome.andThen_accepted, expect,
      if_pos isClosing]

/-! ### Operators between parentheses -/

theorem negated (factored : Factored tokens node) {minus : Lexed} (isMinus : minus.kind = .minus) :
    Enclosed (minus :: tokens) (.unary .negate node) := by
  intro closing rest isClosing
  have stops := stops_of_closing isClosing
  apply expression_of_factor _ stops.foreign
  rw [List.cons_append, Descent.outcome_factor_cons, isMinus]
  simp only [factored.expression stops, Outcome.andThen_accepted]

theorem binary
    {left right : List Lexed} {leftNode rightNode : Node} {token : Lexed} {operator : Operator}
    (factoredLeft : Factored left leftNode) (factoredRight : Factored right rightNode)
    (meant : Operator.ofToken token.kind = .ok operator) :
    Enclosed (left ++ token :: right) (.binary operator leftNode rightNode) := by
  intro closing rest isClosing
  have stops := stops_of_closing isClosing
  have binds := binds_of_ofToken meant
  have unopened : token.kind ≠ .leftParenthesis := by
    intro opening
    rw [opening] at binds
    exact binds rfl
  obtain ⟨tier, found, own, isFound⟩ := Tier.exists_of_precedence_ne_zero binds
  obtain rfl : found = operator := Except.ok.inj (isFound.symm.trans meant)
  -- The operator waits alone on the stack, and the closing parenthesis makes it join its operands.
  obtain ⟨stacked, continued⟩ := Descent.resume_cons nothing_pending own meant leftNode
    (right ++ closing :: rest)
  have ends := Descent.resume_of_foreign stacked stops.foreign rightNode rest
  rw [Descent.expression_eq_resume, List.append_assoc, List.cons_append,
    factoredLeft.taken token _ unopened, Outcome.andThen_accepted, continued,
    factoredRight.taken closing rest stops.unopened, Outcome.andThen_accepted]
  exact ends.1

end Factored

/-! ### Calls -/

structure Listed (tokens : List Lexed) (nodes : List Node) : Prop where
  opens : Opened tokens
  taken : ∀ name found closing rest, closing.kind = .rightParenthesis →
    (Descent.arguments name found (tokens ++ closing :: rest)).outcome =
      .accepted (.call name (found ++ nodes)) rest

theorem Listed.single {tokens : List Lexed} {node : Node} (factored : Factored tokens node) :
    Listed tokens [node] where
  opens := factored.opens
  taken name found closing rest isClosing := by
    rw [Descent.outcome_arguments, factored.expression (stops_of_closing isClosing),
      Outcome.andThen_accepted]
    simp only [if_pos isClosing]

theorem Listed.cons
    {first tokens : List Lexed} {node : Node} {nodes : List Node} {comma : Lexed}
    (factored : Factored first node) (isComma : comma.kind = .comma)
    (listed : Listed tokens nodes) :
    Listed (first ++ comma :: tokens) (node :: nodes) where
  opens := factored.opens.append _
  taken name found closing rest isClosing := by
    have stops : Stops comma.kind := by rw [isComma]; exact ⟨rfl, by decide⟩
    have notClosing : comma.kind ≠ .rightParenthesis := by rw [isComma]; decide
    have others := listed.taken name (found ++ [node]) closing rest isClosing
    rw [List.append_assoc, List.singleton_append] at others
    rw [Descent.outcome_arguments, List.append_assoc, List.cons_append, factored.expression stops,
      Outcome.andThen_accepted]
    simp only [if_neg notClosing, if_pos isComma]
    exact others

namespace Factored

variable {name opening closing : Lexed} (isName : name.kind = .identifier)
  (isOpening : opening.kind = .leftParenthesis) (isClosing : closing.kind = .rightParenthesis)

include isName isOpening isClosing

theorem emptyCall : Factored [name, opening, closing] (.call name.lexeme []) where
  opens := Opened.cons (by rw [isName]; rfl) _
  taken next rest _ := by
    simp only [List.cons_append, List.nil_append]
    rw [Descent.outcome_factor_cons, isName]
    simp only [Descent.outcome_named, if_pos isOpening, if_pos isClosing]

theorem call {tokens : List Lexed} {nodes : List Node} (listed : Listed tokens nodes) :
    Factored (name :: opening :: (tokens ++ [closing])) (.call name.lexeme nodes) where
  opens := Opened.cons (by rw [isName]; rfl) _
  taken next rest _ := by
    have taken := listed.taken name.lexeme [] closing (next :: rest) isClosing
    rcases listed.opens with ⟨first, others, rfl, opens⟩
    -- An argument does not begin like the end of a call without arguments.
    have notClosing : first.kind ≠ .rightParenthesis := by
      intro closed
      rw [closed] at opens
      cases opens
    rw [List.cons_append, List.cons_append, List.append_assoc, List.singleton_append,
      Descent.outcome_factor_cons, isName]
    simp only [Descent.outcome_named, if_pos isOpening, List.cons_append, if_neg notClosing]
    exact taken

end Factored

/-! ### Bodies -/

def Bodied (tokens : List Lexed) (node : Node) : Prop :=
  ∀ next rest, Stops next.kind →
    Descent.body (tokens ++ next :: rest) = .accepted node (next :: rest)

theorem Factored.bodied {tokens : List Lexed} {node : Node} (factored : Factored tokens node) :
    Bodied tokens node := by
  intro next rest stops
  have taken := factored.expression stops rest
  rcases factored.opens with ⟨first, others, rfl, opens⟩
  have notIf : first.kind ≠ .ifWord := by
    intro isIf
    rw [isIf] at opens
    cases opens
  rw [List.cons_append] at taken ⊢
  rw [Descent.body, if_neg notIf, taken]

theorem Bodied.conditional
    {condition whenTrue whenFalse : List Lexed} {first second third : Node}
    (factoredFirst : Factored condition first) (factoredSecond : Factored whenTrue second)
    (factoredThird : Factored whenFalse third)
    {ifWord thenWord elseWord : Lexed} (isIf : ifWord.kind = .ifWord)
    (isThen : thenWord.kind = .thenWord) (isElse : elseWord.kind = .elseWord) :
    Bodied (ifWord :: (condition ++ thenWord :: (whenTrue ++ elseWord :: whenFalse)))
      (.conditional first second third) := by
  intro next rest stops
  have stopsThen : Stops thenWord.kind := by rw [isThen]; exact ⟨rfl, by decide⟩
  have stopsElse : Stops elseWord.kind := by rw [isElse]; exact ⟨rfl, by decide⟩
  simp only [List.cons_append, List.append_assoc, Descent.body, if_pos isIf, Descent.conditional,
    factoredFirst.expression stopsThen, factoredSecond.expression stopsElse,
    factoredThird.expression stops, expect, if_pos isThen, if_pos isElse, Outcome.andThen_accepted]

theorem Bodied.definition
    {tokens : List Lexed} {node : Node} (bodied : Bodied tokens node)
    {name opening closing next : Lexed} (isName : name.kind = .identifier)
    (isOpening : opening.kind = .leftParenthesis) (isClosing : closing.kind = .rightParenthesis)
    (stops : Stops next.kind) (rest : List Lexed) :
    Descent.definition (name :: opening :: closing :: (tokens ++ next :: rest)) =
      .accepted ⟨⟨name.lexeme, []⟩, node⟩ (next :: rest) := by
  have head := prototype_eq isName isOpening (List.forall_mem_nil _) isClosing
    (tokens ++ next :: rest)
  rw [List.nil_append] at head
  rw [Descent.definition, head, Outcome.andThen_accepted, bodied next rest stops,
    Outcome.andThen_accepted]
  rfl

end ExprWasm.Phrase
