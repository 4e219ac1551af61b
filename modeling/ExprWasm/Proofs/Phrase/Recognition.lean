import ExprWasm.Proofs.Phrase.Definition

/-! Everything derivable is accepted.

The grammar can read a minus sign in more than one way: in `-a + b` it can negate `a` or `a + b`.
The recursive descent always takes the longest operand. That it loses nothing by this is seen from
the linear form of expressions, in which every minus sign is followed by all that is left: whatever
is derivable has this form, and what has this form is taken to its end. -/

set_option autoImplicit false

namespace ExprWasm.Phrase

open Token (Kind Lexed)
open ExprWasm.Tree (Node Operator)

structure Primary (word : List Kind) : Prop where
  derived : Derives .factor word
  unsigned : word.head? ≠ some .minus

/-- Expressions without regard to tiers, read from left to right. -/
inductive Linear : List Kind → Prop where
  | primary {word : List Kind} : Primary word → Linear word
  | negated {word : List Kind} : Linear word → Linear (.minus :: word)
  | chain {word rest : List Kind} {operator : Kind} :
      Primary word → operator.precedence ≠ 0 → Linear rest → Linear (word ++ operator :: rest)

namespace Linear

theorem join
    {left right : List Kind} {operator : Kind} (first : Linear left)
    (binds : operator.precedence ≠ 0) (second : Linear right) :
    Linear (left ++ operator :: right) := by
  induction first with
  | primary isPrimary => exact chain isPrimary binds second
  | negated _ inductionHypothesis => exact negated inductionHypothesis
  | chain isPrimary bindsFirst _ inductionHypothesis =>
      rw [List.append_assoc, List.cons_append]
      exact chain isPrimary bindsFirst inductionHypothesis

end Linear

/-- What is derived from a nonterminal below an expression contributes to the linear form. -/
def Nonterminal.Contributes : Nonterminal → List Kind → Prop
  | .phrase _, word => Linear word
  | .factor, word => Linear word
  | .more _, word => ∀ left, Linear left → Linear (left ++ word)
  | _, _ => True

theorem Tier.precedence_ne_zero_of_has
    {tier : Tier} {kind : Kind} (own : tier.has kind = true) : kind.precedence ≠ 0 := by
  rw [(tier.has_eq_true_iff kind).mp own]
  exact Nat.ne_of_gt tier.precedence_pos

theorem Derives.contributes
    {nonterminal : Nonterminal} {word : List Kind} (derived : Derives nonterminal word) :
    nonterminal.Contributes word := by
  have operands {tier : Tier} {operand : List Kind}
      (contributed : (Nonterminal.operandOf tier).Contributes operand) : Linear operand := by
    cases tier <;> exact contributed
  induction derived with
  | phrase _ _ first more => exact more _ (operands first)
  | noMore =>
      intro left linear
      rw [List.append_nil]
      exact linear
  | more own _ _ right more =>
      intro left linear
      have joined := linear.join (Tier.precedence_ne_zero_of_has own) (operands right)
      have extended := more _ joined
      rw [List.append_assoc, List.cons_append] at extended
      exact extended
  | negated _ operand => exact Linear.negated operand
  | reference => exact Linear.primary ⟨Derives.reference, by decide⟩
  | emptyCall => exact Linear.primary ⟨Derives.emptyCall, by decide⟩
  | call listed _ => exact Linear.primary ⟨Derives.call listed, by simp⟩
  | parenthesized inner _ => exact Linear.primary ⟨Derives.parenthesized inner, by simp⟩
  | number => exact Linear.primary ⟨Derives.number, by decide⟩
  | _ => trivial

theorem Derives.linear {word : List Kind} (derived : Derives .expression word) : Linear word :=
  derived.contributes

def opensExpression (kind : Kind) : Bool :=
  kind = .minus || kind = .identifier || kind = .leftParenthesis || kind = .number

theorem Primary.opens {word : List Kind} (isPrimary : Primary word) :
    ∃ first rest, word = first :: rest ∧ opensExpression first = true := by
  obtain ⟨derived, unsigned⟩ := isPrimary
  cases derived with
  | negated => exact absurd rfl unsigned
  | reference => exact ⟨_, _, rfl, rfl⟩
  | emptyCall => exact ⟨_, _, rfl, rfl⟩
  | call => exact ⟨_, _, rfl, rfl⟩
  | parenthesized => exact ⟨_, _, rfl, rfl⟩
  | number => exact ⟨_, _, rfl, rfl⟩

theorem Linear.opens {word : List Kind} (linear : Linear word) :
    ∃ first rest, word = first :: rest ∧ opensExpression first = true := by
  cases linear with
  | primary isPrimary => exact isPrimary.opens
  | negated => exact ⟨_, _, rfl, rfl⟩
  | chain isPrimary _ _ =>
      obtain ⟨first, rest, same, opening⟩ := isPrimary.opens
      exact ⟨first, _, by rw [same, List.cons_append], opening⟩

theorem Derives.arguments_opens {word : List Kind} (derived : Derives .arguments word) :
    ∃ first rest, word = first :: rest ∧ opensExpression first = true := by
  cases derived with
  | argument expression => exact expression.linear.opens
  | arguments expression _ =>
      obtain ⟨first, rest, same, opening⟩ := expression.linear.opens
      exact ⟨first, _, by rw [same, List.cons_append], opening⟩

theorem Derives.are_identifiers {word : List Kind} (derived : Derives .names word) :
    ∀ kind ∈ word, kind = .identifier := by
  generalize isNames : Nonterminal.names = nonterminal at derived
  induction derived with
  | noName =>
      intro kind member
      cases member
  | names _ inductionHypothesis =>
      intro kind member
      rcases List.mem_cons.mp member with same | later
      · exact same
      · exact inductionHypothesis isNames kind later
  | _ => cases isNames

/-! ### Lists of tokens from lists of kinds -/

theorem kinds_eq_cons
    {tokens : List Lexed} {kind : Kind} {word : List Kind} (same : kinds tokens = kind :: word) :
    ∃ token rest, tokens = token :: rest ∧ token.kind = kind ∧ kinds rest = word :=
  List.map_eq_cons_iff.mp same

theorem kinds_eq_append
    {tokens : List Lexed} {first second : List Kind} (same : kinds tokens = first ++ second) :
    ∃ before after, tokens = before ++ after ∧ kinds before = first ∧ kinds after = second :=
  List.map_eq_append_iff.mp same

theorem kinds_eq_nil {tokens : List Lexed} (same : kinds tokens = []) : tokens = [] :=
  List.map_eq_nil_iff.mp same

theorem kinds_eq_singleton
    {tokens : List Lexed} {kind : Kind} (same : kinds tokens = [kind]) :
    ∃ token, tokens = [token] ∧ token.kind = kind := by
  obtain ⟨token, rest, split, isKind, empty⟩ := kinds_eq_cons same
  rw [kinds_eq_nil empty] at split
  exact ⟨token, split, isKind⟩

theorem Readable.left {first second : List Lexed} (readable : Readable (first ++ second)) :
    Readable first :=
  fun token member => readable token (List.mem_append_left _ member)

theorem Readable.right {first second : List Lexed} (readable : Readable (first ++ second)) :
    Readable second :=
  fun token member => readable token (List.mem_append_right _ member)

theorem Readable.tail {token : Lexed} {rest : List Lexed} (readable : Readable (token :: rest)) :
    Readable rest :=
  fun other member => readable other (List.mem_cons_of_mem _ member)

/-! ### Acceptance -/

structure Stops (kind : Kind) : Prop where
  foreign : kind.precedence = 0
  unopened : kind ≠ .leftParenthesis

/-- A word is taken to its end as an expression, whatever follows that cannot continue one. -/
def Accepted (word : List Kind) : Prop :=
  ∀ tokens next rest, kinds tokens = word → Readable tokens → Stops next.kind →
    ∃ node, Descent.expression (tokens ++ next :: rest) = .accepted node (next :: rest)

theorem arguments_accepted
    {bound : Nat}
    (inner : ∀ word, word.length < bound → Derives .expression word → Accepted word)
    {word : List Kind} (derived : Derives .arguments word) (short : word.length < bound)
    {tokens : List Lexed} (same : kinds tokens = word) (readable : Readable tokens)
    {closing : Lexed} (closes : closing.kind = .rightParenthesis)
    (name : String) (found : List Node) (rest : List Lexed) :
    ∃ node,
      (Descent.arguments name found (tokens ++ closing :: rest)).outcome = .accepted node rest := by
  generalize isArguments : Nonterminal.arguments = nonterminal at derived
  induction derived generalizing tokens found with
  | argument expression _ =>
      have stops : Stops closing.kind := by rw [closes]; exact ⟨rfl, by decide⟩
      obtain ⟨node, taken⟩ := inner _ short expression tokens closing rest same readable stops
      rw [Descent.outcome_arguments, taken, Outcome.andThen_accepted]
      simp only [if_pos closes]
      exact ⟨_, rfl⟩
  | arguments expression _ _ inductionHypothesis =>
      obtain ⟨first, others, split, sameFirst, sameOthers⟩ := kinds_eq_append same
      obtain ⟨comma, later, splitOthers, isComma, sameLater⟩ := kinds_eq_cons sameOthers
      subst split splitOthers
      have stops : Stops comma.kind := by rw [isComma]; exact ⟨rfl, by decide⟩
      simp only [List.length_append, List.length_cons] at short
      obtain ⟨node, taken⟩ := inner _ (by omega) expression first comma
        (later ++ closing :: rest) sameFirst readable.left stops
      have notClosing : comma.kind ≠ .rightParenthesis := by rw [isComma]; decide
      rw [Descent.outcome_arguments, List.append_assoc, List.cons_append, taken,
        Outcome.andThen_accepted]
      simp only [if_neg notClosing, if_pos isComma]
      exact inductionHypothesis (by omega) sameLater readable.right.tail _ rfl
  | _ => cases isArguments

theorem primary_accepted
    {bound : Nat}
    (inner : ∀ word, word.length < bound → Derives .expression word → Accepted word)
    {word : List Kind} (isPrimary : Primary word) (short : word.length < bound + 1)
    {tokens : List Lexed} (same : kinds tokens = word) (readable : Readable tokens)
    {next : Lexed} (unopened : next.kind ≠ .leftParenthesis) (rest : List Lexed) :
    ∃ node,
      (Descent.factor (tokens ++ next :: rest)).outcome = .accepted node (next :: rest) := by
  obtain ⟨derived, unsigned⟩ := isPrimary
  cases derived with
  | negated => exact absurd rfl unsigned
  | reference =>
      obtain ⟨name, split, isName⟩ := kinds_eq_singleton same
      subst split
      rw [List.cons_append, List.nil_append, Descent.outcome_factor_cons, isName]
      simp only [Descent.outcome_named, if_neg unopened]
      exact ⟨_, rfl⟩
  | emptyCall =>
      obtain ⟨name, others, split, isName, sameOthers⟩ := kinds_eq_cons same
      obtain ⟨opening, later, splitOthers, isOpening, sameLater⟩ := kinds_eq_cons sameOthers
      obtain ⟨closing, splitLater, isClosing⟩ := kinds_eq_singleton sameLater
      subst split splitOthers splitLater
      simp only [List.cons_append, List.nil_append]
      rw [Descent.outcome_factor_cons, isName]
      simp only [Descent.outcome_named, if_pos isOpening, if_pos isClosing]
      exact ⟨_, rfl⟩
  | call listed =>
      obtain ⟨name, others, split, isName, sameOthers⟩ := kinds_eq_cons same
      obtain ⟨opening, later, splitOthers, isOpening, sameLater⟩ := kinds_eq_cons sameOthers
      obtain ⟨inside, last, splitLater, sameInside, sameLast⟩ := kinds_eq_append sameLater
      obtain ⟨closing, splitLast, isClosing⟩ := kinds_eq_singleton sameLast
      subst split splitOthers splitLater splitLast
      simp only [List.length_cons, List.length_append] at short
      obtain ⟨node, taken⟩ := arguments_accepted inner listed (by omega) sameInside
        readable.tail.tail.left isClosing name.lexeme [] (next :: rest)
      -- An argument does not begin like the end of a call without arguments.
      obtain ⟨head, tail, begins, opens⟩ := listed.arguments_opens
      obtain ⟨first, after, splitInside, isFirst, _⟩ := kinds_eq_cons (sameInside.trans begins)
      have notClosing : first.kind ≠ .rightParenthesis := by
        intro closed
        rw [← isFirst, closed] at opens
        cases opens
      refine ⟨node, ?_⟩
      rw [List.cons_append, List.cons_append, List.append_assoc, List.singleton_append]
      rw [splitInside, List.cons_append] at taken ⊢
      rw [Descent.outcome_factor_cons, isName]
      simp only [Descent.outcome_named, if_pos isOpening, if_neg notClosing]
      exact taken
  | parenthesized expression =>
      obtain ⟨opening, others, split, isOpening, sameOthers⟩ := kinds_eq_cons same
      obtain ⟨inside, last, splitOthers, sameInside, sameLast⟩ := kinds_eq_append sameOthers
      obtain ⟨closing, splitLast, isClosing⟩ := kinds_eq_singleton sameLast
      subst split splitOthers splitLast
      simp only [List.length_cons, List.length_append] at short
      have stops : Stops closing.kind := by rw [isClosing]; exact ⟨rfl, by decide⟩
      obtain ⟨node, taken⟩ := inner _ (by omega) expression inside closing (next :: rest)
        sameInside readable.tail.left stops
      refine ⟨node, ?_⟩
      rw [List.cons_append, List.append_assoc, List.singleton_append,
        Descent.outcome_factor_cons, isOpening]
      simp only [taken, Outcome.andThen_accepted, expect, if_pos isClosing]
  | number =>
      obtain ⟨numeral, split, isNumber⟩ := kinds_eq_singleton same
      subst split
      obtain ⟨decimal, found⟩ :=
        Option.isSome_iff_exists.mp (readable numeral (List.mem_cons_self ..) isNumber)
      rw [List.cons_append, List.nil_append, Descent.outcome_factor_cons, isNumber]
      simp only [Phrase.numeral, found]
      exact ⟨_, rfl⟩

/-- The linear form is taken to its end from every state of the operator stack. -/
theorem linear_accepted
    {bound : Nat}
    (inner : ∀ word, word.length < bound → Derives .expression word → Accepted word)
    {word : List Kind} (linear : Linear word) (short : word.length < bound + 1)
    {tokens : List Lexed} (same : kinds tokens = word) (readable : Readable tokens)
    {next : Lexed} (stops : Stops next.kind) (rest : List Lexed)
    (stack : List Pending) (ordered : (stack.map Pending.tier).Sublist Tier.all) :
    ∃ node,
      ((Descent.factor (tokens ++ next :: rest)).outcome.andThen fun operand after =>
          Descent.resume Tier.all operand stack after) =
        .accepted node (next :: rest) := by
  induction linear generalizing tokens stack with
  | primary isPrimary =>
      obtain ⟨operand, taken⟩ :=
        primary_accepted inner isPrimary short same readable stops.unopened rest
      rw [taken, Outcome.andThen_accepted,
        (Descent.resume_of_foreign ordered stops.foreign operand rest).1]
      exact ⟨_, rfl⟩
  | negated _ inductionHypothesis =>
      obtain ⟨minus, others, split, isMinus, sameOthers⟩ := kinds_eq_cons same
      subst split
      simp only [List.length_cons] at short
      -- The operand of the minus sign has an operator stack of its own and takes all that is left.
      obtain ⟨operand, taken⟩ :=
        inductionHypothesis (by omega) sameOthers readable.tail [] (List.nil_sublist Tier.all)
      rw [← Descent.expression_eq_resume] at taken
      rw [List.cons_append, Descent.outcome_factor_cons, isMinus]
      simp only [taken, Outcome.andThen_accepted]
      rw [(Descent.resume_of_foreign ordered stops.foreign _ rest).1]
      exact ⟨_, rfl⟩
  | chain isPrimary binds _ inductionHypothesis =>
      obtain ⟨first, others, split, sameFirst, sameOthers⟩ := kinds_eq_append same
      obtain ⟨operatorToken, later, splitOthers, isOperator, sameLater⟩ := kinds_eq_cons sameOthers
      subst split splitOthers
      simp only [List.length_append, List.length_cons] at short
      rw [← isOperator] at binds
      have unopened : operatorToken.kind ≠ .leftParenthesis := by
        intro opening
        rw [opening] at binds
        exact binds rfl
      obtain ⟨operand, taken⟩ := primary_accepted inner isPrimary (by omega) sameFirst
        readable.left unopened (later ++ next :: rest)
      obtain ⟨tier, operator, own, meant⟩ := Tier.exists_of_precedence_ne_zero binds
      obtain ⟨stacked, continued⟩ :=
        Descent.resume_cons ordered own meant operand (later ++ next :: rest)
      rw [List.append_assoc, List.cons_append, taken, Outcome.andThen_accepted, continued]
      exact inductionHypothesis (by omega) sameLater readable.right.tail _ stacked

theorem accepted_of_length (bound : Nat) :
    ∀ word, word.length < bound → Derives .expression word → Accepted word := by
  induction bound with
  | zero =>
      intro word short
      omega
  | succ bound inner =>
      intro word short derived tokens next rest same readable stops
      rw [Descent.expression_eq_resume]
      exact linear_accepted inner derived.linear short same readable stops rest []
        (List.nil_sublist Tier.all)

theorem Derives.accepted {word : List Kind} (derived : Derives .expression word) : Accepted word :=
  accepted_of_length (word.length + 1) word (Nat.lt_succ_self _) derived

/-! ### Definitions -/

theorem prototype_accepted
    {word : List Kind} (derived : Derives .prototype word)
    {tokens : List Lexed} (same : kinds tokens = word) (rest : List Lexed) :
    ∃ head, prototype (tokens ++ rest) = .accepted head rest := by
  cases derived with
  | prototype names =>
      obtain ⟨name, others, split, isName, sameOthers⟩ := kinds_eq_cons same
      obtain ⟨opening, later, splitOthers, isOpening, sameLater⟩ := kinds_eq_cons sameOthers
      obtain ⟨inside, last, splitLater, sameInside, sameLast⟩ := kinds_eq_append sameLater
      obtain ⟨closing, splitLast, isClosing⟩ := kinds_eq_singleton sameLast
      subst split splitOthers splitLater splitLast
      have areNames := names.are_identifiers
      have dropped : afterParameters (inside ++ closing :: rest) = closing :: rest := by
        unfold afterParameters
        rw [List.dropWhile_append_of_pos]
        · simp [isClosing]
        · intro token member
          apply decide_eq_true
          apply areNames
          rw [← sameInside]
          exact List.mem_map_of_mem member
      refine ⟨⟨name.lexeme, parameters (inside ++ closing :: rest)⟩, ?_⟩
      simp only [prototype, List.cons_append, List.append_assoc, List.nil_append, expect,
        if_pos isName, if_pos isOpening, Outcome.andThen_accepted, dropped, if_pos isClosing]

theorem body_accepted
    {word : List Kind} (derived : Derives .conditional word ∨ Derives .expression word)
    {tokens : List Lexed} (same : kinds tokens = word) (readable : Readable tokens)
    {next : Lexed} (stops : Stops next.kind) (rest : List Lexed) :
    ∃ node, Descent.body (tokens ++ next :: rest) = .accepted node (next :: rest) := by
  rcases derived with derived | derived
  · cases derived with
    | conditional derivedCondition derivedTrue derivedFalse =>
        obtain ⟨ifWord, others, split, isIf, sameOthers⟩ := kinds_eq_cons same
        obtain ⟨condition, later, splitOthers, sameCondition, sameLater⟩ :=
          kinds_eq_append sameOthers
        obtain ⟨thenWord, branches, splitLater, isThen, sameBranches⟩ := kinds_eq_cons sameLater
        obtain ⟨whenTrue, last, splitBranches, sameTrue, sameLast⟩ := kinds_eq_append sameBranches
        obtain ⟨elseWord, whenFalse, splitLast, isElse, sameFalse⟩ := kinds_eq_cons sameLast
        subst split splitOthers splitLater splitBranches splitLast
        have stopsThen : Stops thenWord.kind := by rw [isThen]; exact ⟨rfl, by decide⟩
        have stopsElse : Stops elseWord.kind := by rw [isElse]; exact ⟨rfl, by decide⟩
        have readableLater := readable.tail.right.tail
        obtain ⟨first, takenFirst⟩ := derivedCondition.accepted condition thenWord
          (whenTrue ++ elseWord :: (whenFalse ++ next :: rest)) sameCondition readable.tail.left
          stopsThen
        obtain ⟨second, takenSecond⟩ := derivedTrue.accepted whenTrue elseWord
          (whenFalse ++ next :: rest) sameTrue readableLater.left stopsElse
        obtain ⟨third, takenThird⟩ := derivedFalse.accepted whenFalse next rest sameFalse
          readableLater.right.tail stops
        refine ⟨.conditional first second third, ?_⟩
        simp only [List.cons_append, List.append_assoc, Descent.body, if_pos isIf,
          Descent.conditional, takenFirst, takenSecond, takenThird, expect, if_pos isThen,
          if_pos isElse, Outcome.andThen_accepted]
  · obtain ⟨first, others, begins, opens⟩ := derived.linear.opens
    obtain ⟨token, inside, split, isFirst, _⟩ := kinds_eq_cons (same.trans begins)
    have notIf : token.kind ≠ .ifWord := by
      intro isIf
      rw [← isFirst, isIf] at opens
      cases opens
    obtain ⟨node, taken⟩ := derived.accepted tokens next rest same readable stops
    refine ⟨node, ?_⟩
    rw [split, List.cons_append] at taken ⊢
    rw [Descent.body, if_neg notIf, taken]

theorem definition_accepted
    {word : List Kind} (derived : Derives .definition word)
    {tokens : List Lexed} (same : kinds tokens = word) (readable : Readable tokens)
    {next : Lexed} (stops : Stops next.kind) (rest : List Lexed) :
    ∃ define inner function, tokens = define :: inner ∧ define.kind = .define ∧
      Descent.definition (inner ++ next :: rest) = .accepted function (next :: rest) := by
  obtain ⟨head, body, rfl, derivedHead, derivedBody⟩ :
      ∃ head body, word = .define :: (head ++ body) ∧ Derives .prototype head ∧
        (Derives .conditional body ∨ Derives .expression body) := by
    cases derived with
    | conditionalDefinition derivedHead derivedBody =>
        exact ⟨_, _, rfl, derivedHead, Or.inl derivedBody⟩
    | expressionDefinition derivedHead derivedBody =>
        exact ⟨_, _, rfl, derivedHead, Or.inr derivedBody⟩
  obtain ⟨define, inner, split, isDefine, sameInner⟩ := kinds_eq_cons same
  obtain ⟨before, after, splitInner, sameBefore, sameAfter⟩ := kinds_eq_append sameInner
  subst split splitInner
  obtain ⟨prototype, takenHead⟩ :=
    prototype_accepted derivedHead sameBefore (after ++ next :: rest)
  obtain ⟨node, takenBody⟩ :=
    body_accepted derivedBody sameAfter readable.tail.right stops rest
  refine ⟨define, before ++ after, ⟨prototype, node⟩, rfl, isDefine, ?_⟩
  rw [Descent.definition, List.append_assoc, takenHead, Outcome.andThen_accepted, takenBody,
    Outcome.andThen_accepted]

end ExprWasm.Phrase
