import ExprWasm.Proofs.Phrase.OperatorStack

/-! Definitions by recursive descent.

The allowance of a whole list of tokens suffices for every expression inside a definition, so a
definition can be described without one. Like an expression it is accepted or rejected before the
first boundary, and for a reason. -/

set_option autoImplicit false

namespace ExprWasm.Phrase

open Token (Kind Lexed)
open ExprWasm.Tree (Node Prototype Function)

theorem expect_eq_accepted
    {kind : Kind} {complaint : Complaint} {tokens rest : List Lexed} {token : Lexed}
    (accepted : expect kind complaint tokens = .accepted token rest) :
    tokens = token :: rest ∧ token.kind = kind := by
  cases tokens with
  | nil => cases accepted
  | cons first after =>
      rw [expect] at accepted
      by_cases fits : first.kind = kind
      · rw [if_pos fits] at accepted
        cases accepted
        exact ⟨rfl, fits⟩
      · rw [if_neg fits] at accepted
        cases accepted

/-- The parameters are names, up to the first token that is none. -/
theorem exists_names (tokens : List Lexed) :
    ∃ names, tokens = names ++ afterParameters tokens ∧
      ∀ token ∈ names, token.kind = .identifier := by
  refine ⟨tokens.takeWhile fun token => token.kind = .identifier, ?_, ?_⟩
  · rw [afterParameters, List.takeWhile_append_dropWhile]
  · intro token member
    exact of_decide_eq_true (List.all_eq_true.mp List.all_takeWhile token member)

theorem prototype_eq_accepted
    {tokens rest : List Lexed} {head : Prototype}
    (accepted : prototype tokens = .accepted head rest) :
    ∃ name opening names closing,
      tokens = name :: opening :: (names ++ closing :: rest) ∧
      name.kind = .identifier ∧ opening.kind = .leftParenthesis ∧
      (∀ token ∈ names, token.kind = .identifier) ∧ closing.kind = .rightParenthesis := by
  unfold prototype at accepted
  obtain ⟨name, afterName, first, accepted⟩ := Outcome.andThen_eq_accepted accepted
  obtain ⟨opening, inside, second, accepted⟩ := Outcome.andThen_eq_accepted accepted
  obtain ⟨closing, outside, third, accepted⟩ := Outcome.andThen_eq_accepted accepted
  cases accepted
  obtain ⟨atName, isName⟩ := expect_eq_accepted first
  obtain ⟨atOpening, isOpening⟩ := expect_eq_accepted second
  obtain ⟨atClosing, isClosing⟩ := expect_eq_accepted third
  obtain ⟨names, split, areNames⟩ := exists_names inside
  refine ⟨name, opening, names, closing, ?_, isName, isOpening, areNames, isClosing⟩
  rw [atName, atOpening, ← atClosing, ← split]

theorem prototype_eq
    {name opening closing : Lexed} {names : List Lexed} (isName : name.kind = .identifier)
    (isOpening : opening.kind = .leftParenthesis)
    (areNames : ∀ token ∈ names, token.kind = .identifier)
    (isClosing : closing.kind = .rightParenthesis) (rest : List Lexed) :
    prototype (name :: opening :: (names ++ closing :: rest)) =
      .accepted ⟨name.lexeme, names.map Lexed.lexeme⟩ rest := by
  have all : ∀ token ∈ names, decide (token.kind = .identifier) = true :=
    fun token member => decide_eq_true (areNames token member)
  have ends : closing.kind ≠ .identifier := by
    rw [isClosing]
    decide
  have found : parameters (names ++ closing :: rest) = names.map Lexed.lexeme := by
    rw [parameters, List.takeWhile_append_of_pos all]
    simp [ends]
  have left : afterParameters (names ++ closing :: rest) = closing :: rest := by
    rw [afterParameters, List.dropWhile_append_of_pos all]
    simp [ends]
  simp only [prototype, expect, if_pos isName, if_pos isOpening, if_pos isClosing, found, left,
    Outcome.andThen_accepted]

theorem derives_names {names : List Lexed} (areNames : ∀ token ∈ names, token.kind = .identifier) :
    Derives .names (kinds names) := by
  induction names with
  | nil => exact Derives.noName
  | cons name names inductionHypothesis =>
      rw [kinds_cons, areNames name (List.mem_cons_self ..)]
      apply Derives.names
      apply inductionHypothesis
      intro token member
      exact areNames token (List.mem_cons_of_mem _ member)

theorem prototype_decided {tokens : List Lexed} (complete : Complete tokens) :
    (prototype tokens).Decided (Derives .prototype) tokens := by
  refine Outcome.Decided.andThen complete (expect_decided complete .nameExpected rfl)
    (fun word => Derives .prototype (.identifier :: word)) ?_ ?_
    (Derives.prototype Derives.noName)
  · intro name afterName _ complete
    refine Outcome.Decided.andThen complete (expect_decided complete .openingExpected rfl)
      (fun word => Derives .prototype (.identifier :: .leftParenthesis :: word)) ?_ ?_
      (Derives.prototype Derives.noName)
    · intro opening inside _ complete
      obtain ⟨names, split, areNames⟩ := exists_names inside
      have splits : Splits inside names (afterParameters inside) := by
        refine ⟨split, ?_⟩
        intro token member
        rw [areNames token member]
        rfl
      refine Outcome.Decided.after splits ?_
      have inside : isBoundary .rightParenthesis = false := rfl
      have closing := expect_decided (complete.of_splits splits) .closingExpected inside
      refine (closing.imp ?_).map fun _ => (⟨name.lexeme, parameters _⟩ : Prototype)
      intro word same
      rw [same]
      exact Derives.prototype (derives_names areNames)
    · intro opening rest same derived
      rw [same]
      exact derived
  · intro name rest same derived
    rw [same]
    exact derived

namespace Descent

def conditional (tokens : List Lexed) : Outcome Node :=
  (expression tokens).andThen fun condition rest =>
    (expect .thenWord .thenExpected rest).andThen fun _ rest =>
      (expression rest).andThen fun whenTrue rest =>
        (expect .elseWord .elseExpected rest).andThen fun _ rest =>
          (expression rest).andThen fun whenFalse rest =>
            .accepted (.conditional condition whenTrue whenFalse) rest

def body : List Lexed → Outcome Node
  | [] => .interrupted
  | token :: rest =>
      if token.kind = .ifWord then conditional rest else expression (token :: rest)

def definition (tokens : List Lexed) : Outcome Function :=
  (prototype tokens).andThen fun head rest =>
    (body rest).andThen fun body rest => .accepted ⟨head, body⟩ rest

theorem conditional_decided {tokens : List Lexed} (complete : Complete tokens) :
    (conditional tokens).Decided (fun word => Derives .conditional (.ifWord :: word)) tokens := by
  refine Outcome.Decided.andThen complete (expression_decided complete)
    (fun word => ∃ whenTrue whenFalse,
      word = .thenWord :: (whenTrue ++ .elseWord :: whenFalse) ∧
      Derives .expression whenTrue ∧ Derives .expression whenFalse)
    ?_ ?_ ⟨_, _, rfl, Derives.expression_number, Derives.expression_number⟩
  · intro condition rest _ complete
    refine Outcome.Decided.andThen complete (expect_decided complete .thenExpected rfl)
      (fun word => ∃ whenTrue whenFalse, word = whenTrue ++ .elseWord :: whenFalse ∧
        Derives .expression whenTrue ∧ Derives .expression whenFalse)
      ?_ ?_ ⟨_, _, rfl, Derives.expression_number, Derives.expression_number⟩
    · intro thenWord rest _ complete
      refine Outcome.Decided.andThen complete (expression_decided complete)
        (fun word => ∃ whenFalse, word = .elseWord :: whenFalse ∧ Derives .expression whenFalse)
        ?_ ?_ ⟨_, rfl, Derives.expression_number⟩
      · intro whenTrue rest _ complete
        refine Outcome.Decided.andThen complete (expect_decided complete .elseExpected rfl)
          (Derives .expression) ?_ ?_ Derives.expression_number
        · intro elseWord rest _ complete
          exact (expression_decided complete).map (Node.conditional condition whenTrue)
        · intro elseWord whenFalse same derivedFalse
          exact ⟨whenFalse, by rw [same]; rfl, derivedFalse⟩
      · rintro whenTrue others derivedTrue ⟨whenFalse, same, derivedFalse⟩
        exact ⟨whenTrue, whenFalse, by rw [same], derivedTrue, derivedFalse⟩
    · rintro thenWord others same ⟨whenTrue, whenFalse, sameOthers, derivedBoth⟩
      exact ⟨whenTrue, whenFalse, by rw [same, sameOthers]; rfl, derivedBoth⟩
  · rintro condition others derived ⟨whenTrue, whenFalse, same, derivedTrue, derivedFalse⟩
    rw [same]
    exact Derives.conditional derived derivedTrue derivedFalse

theorem body_decided {tokens : List Lexed} (complete : Complete tokens) :
    (body tokens).Decided
      (fun word => Derives .conditional word ∨ Derives .expression word) tokens := by
  cases tokens with
  | nil => exact absurd rfl complete.ne_nil
  | cons token rest =>
      rw [body]
      by_cases opens : token.kind = .ifWord
      · have inside : isBoundary token.kind = false := by rw [opens]; rfl
        rw [if_pos opens]
        refine Outcome.Decided.cons inside ?_
        rw [opens]
        exact (conditional_decided (complete.tail inside)).imp fun _ => Or.inl
      · rw [if_neg opens]
        exact (expression_decided complete).imp fun _ => Or.inr

theorem definition_decided {tokens : List Lexed} (complete : Complete tokens) :
    (definition tokens).Decided (fun word => Derives .definition (.define :: word)) tokens := by
  refine Outcome.Decided.andThen complete (prototype_decided complete)
    (fun word => Derives .conditional word ∨ Derives .expression word) ?_ ?_
    (Or.inr Derives.expression_number)
  · intro head rest _ complete
    exact (body_decided complete).map (Function.mk head)
  · intro head body derivedHead derivedBody
    rcases derivedBody with conditional | expression
    · exact Derives.conditionalDefinition derivedHead conditional
    · exact Derives.expressionDefinition derivedHead expression

end Descent

theorem Descent.conditional_eq_run (tokens : List Lexed) :
    Descent.conditional tokens = Plan.conditional.run Descent.call tokens := by
  simp only [Descent.conditional, Plan.conditional, Plan.run, Plan.run_expect, Descent.call]

theorem Descent.body_eq_run (tokens : List Lexed) :
    Descent.body tokens = Plan.body.run Descent.call tokens := by
  cases tokens with
  | nil => rfl
  | cons token rest =>
      rw [Descent.body, Plan.body, Plan.run]
      split
      · exact Descent.conditional_eq_run rest
      · exact (Outcome.andThen_accepted_right _).symm

theorem bodyWithin_eq
    {allowance : Nat} {tokens : List Lexed} (enough : allowanceFor tokens ≤ allowance) :
    bodyWithin allowance tokens = Descent.body tokens := by
  rw [bodyWithin_eq_run, Descent.body_eq_run]
  exact Plan.run_within_eq_descent (Plan.body_fits (Nat.le_of_succ_le enough))

theorem definitionWithin_eq
    {allowance : Nat} {tokens : List Lexed} (enough : allowanceFor tokens ≤ allowance) :
    definitionWithin allowance tokens = Descent.definition tokens := by
  unfold definitionWithin Descent.definition
  apply Outcome.andThen_congr
  intro head rest accepted
  obtain ⟨name, opening, names, closing, split, _⟩ := prototype_eq_accepted accepted
  have enoughRest : allowanceFor rest ≤ allowance := by
    rw [split] at enough
    simp only [allowanceFor, List.length_cons, List.length_append] at enough ⊢
    omega
  rw [bodyWithin_eq enoughRest]

end ExprWasm.Phrase
