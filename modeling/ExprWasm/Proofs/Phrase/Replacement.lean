import ExprWasm.Proofs.Phrase.Recognition

/-! An accepted phrase does not depend on what follows it.

The tokens after a phrase are replaced by others. The first of them is the only one that was looked
at, to see that it does not continue the phrase; if this is so for the first of the others too, then
the same phrase is accepted. -/

set_option autoImplicit false

namespace ExprWasm.Phrase

open Token (Kind Lexed)
open ExprWasm.Tree (Node Operator Prototype Function)

namespace Plan

/-- Wherever the plan accepts at a token without taking it, it accepts alike at every token that
cannot continue an expression. -/
def Settles : Plan → Prop
  | accept _ => True
  | reject _ => True
  | fail _ => True
  | look next =>
      ∀ kind lexeme, (next kind lexeme).Settles ∧
        ((next kind lexeme).Takes ∨
          ∃ node, next kind lexeme = accept node ∧
            ∀ other text, Stops other → next other text = accept node)
  | take next => next.Settles
  | call _ next => ∀ node, (next node).Settles

theorem settles_expect
    {next : Plan} (settles : next.Settles) (kind : Kind) (complaint : Complaint) :
    (expect kind complaint next).Settles := by
  intro found _
  simp only
  split
  · exact ⟨settles, .inl trivial⟩
  · exact ⟨trivial, .inl trivial⟩

theorem conditional_settles : conditional.Settles := by
  intro condition
  apply settles_expect
  intro whenTrue
  apply settles_expect
  exact fun whenFalse => trivial

theorem body_settles : body.Settles := by
  intro kind _
  simp only
  split
  · exact ⟨conditional_settles, .inl trivial⟩
  · exact ⟨fun _ => trivial, .inl (.inl rfl)⟩

theorem body_takes : body.Takes := by
  intro kind _
  simp only
  split
  · trivial
  · exact .inl rfl

end Plan

theorem Call.plan_settles (call : Call) : call.plan.Settles := by
  cases call with
  | expression => exact fun _ _ => trivial
  | chain operands waiting =>
      intro kind lexeme
      simp only
      by_cases foreign : kind.precedence = 0
      · rw [foreign]
        cases reduces : reduceFrom 0 operands waiting with
        | error failure => exact ⟨trivial, .inl trivial⟩
        | ok reduced =>
            obtain ⟨operands, waiting⟩ := reduced
            cases operands with
            | nil => exact ⟨trivial, .inl trivial⟩
            | cons node below =>
                cases below with
                | nil =>
                    refine ⟨trivial, .inr ⟨node, rfl, fun other _ stops => ?_⟩⟩
                    rw [stops.foreign, reduces]
                    rfl
                | cons left below => exact ⟨trivial, .inl trivial⟩
      · cases reduceFrom kind.precedence operands waiting with
        | error failure => exact ⟨trivial, .inl trivial⟩
        | ok reduced =>
            simp only [if_neg foreign]
            cases Operator.ofToken kind with
            | error failure => exact ⟨trivial, .inl trivial⟩
            | ok operator => exact ⟨fun _ _ => trivial, .inl trivial⟩
  | factor =>
      have takes : Call.factor.plan.Takes := plan_takes rfl
      intro kind lexeme
      refine ⟨?_, .inl (takes kind lexeme)⟩
      simp only
      split
      · exact fun _ => trivial
      · split <;> trivial
      · exact fun _ => trivial
      · intro node
        apply Plan.settles_expect
        trivial
      · trivial
  | name callee =>
      intro kind _
      simp only
      by_cases opened : kind = .leftParenthesis
      · rw [if_pos opened]
        refine ⟨fun kind _ => ?_, .inl trivial⟩
        simp only
        split
        · exact ⟨trivial, .inl trivial⟩
        · exact ⟨fun _ => trivial, .inl (.inl rfl)⟩
      · rw [if_neg opened]
        exact ⟨trivial, .inr ⟨_, rfl, fun other _ stops => if_neg stops.unopened⟩⟩
  | arguments callee found =>
      intro argument kind _
      simp only
      split
      · exact ⟨trivial, .inl trivial⟩
      · split
        · exact ⟨fun _ => trivial, .inl trivial⟩
        · exact ⟨trivial, .inl trivial⟩

structure Exchange where
  next : Lexed
  after : List Lexed
  other : Lexed
  beyond : List Lexed

namespace Exchange

variable {exchange : Exchange}

inductive Replaced (exchange : Exchange) : List Lexed → List Lexed → Prop where
  | here :
      Replaced exchange (exchange.next :: exchange.after) (exchange.other :: exchange.beyond)
  | cons (token : Lexed) {rest others : List Lexed} (later : Replaced exchange rest others) :
      Replaced exchange (token :: rest) (token :: others)

theorem replaced_append (exchange : Exchange) (taken : List Lexed) :
    exchange.Replaced (taken ++ exchange.next :: exchange.after)
      (taken ++ exchange.other :: exchange.beyond) := by
  induction taken with
  | nil => exact Replaced.here
  | cons token taken inductionHypothesis => exact Replaced.cons token inductionHypothesis

/-- A token before the last part is the same in both lists. -/
theorem Replaced.uncons
    {token : Lexed} {rest others : List Lexed} (replaced : exchange.Replaced (token :: rest) others)
    (outside : exchange.after.length < rest.length) :
    ∃ left, others = token :: left ∧ exchange.Replaced rest left := by
  cases replaced with
  | here => exact absurd outside (Nat.lt_irrefl _)
  | cons _ later => exact ⟨_, rfl, later⟩

theorem Replaced.split
    {taken rest others : List Lexed} (replaced : exchange.Replaced (taken ++ rest) others)
    (outside : exchange.after.length < rest.length) :
    ∃ left, others = taken ++ left ∧ exchange.Replaced rest left := by
  induction taken generalizing others with
  | nil => exact ⟨others, rfl, replaced⟩
  | cons token taken inductionHypothesis =>
      have further : exchange.after.length < (taken ++ rest).length := by
        rw [List.length_append]
        omega
      obtain ⟨middle, rfl, later⟩ := replaced.uncons further
      obtain ⟨left, rfl, replacedRest⟩ := inductionHypothesis later
      exact ⟨left, rfl, replacedRest⟩

theorem Replaced.length_lt
    {tokens others : List Lexed} (replaced : exchange.Replaced tokens others) :
    exchange.after.length < tokens.length := by
  induction replaced with
  | here => exact Nat.lt_succ_self _
  | cons token _ inductionHypothesis => exact Nat.lt_succ_of_lt inductionHypothesis

theorem Replaced.eq_last
    {left : List Lexed} (replaced : exchange.Replaced (exchange.next :: exchange.after) left) :
    left = exchange.other :: exchange.beyond := by
  generalize begins : exchange.next :: exchange.after = tokens at replaced
  cases replaced with
  | here => rfl
  | cons token later =>
      cases begins
      exact absurd later.length_lt (Nat.lt_irrefl _)

/-- What is accepted in the first list before the last part is accepted in the second. -/
def Kept {α : Type} (exchange : Exchange) (first second : Outcome α) : Prop :=
  ∀ value rest, first = .accepted value rest → exchange.after.length < rest.length →
    ∃ left, second = .accepted value left ∧ exchange.Replaced rest left

theorem Kept.accepted
    {α : Type} {rest left : List Lexed} (replaced : exchange.Replaced rest left) (value : α) :
    exchange.Kept (.accepted value rest) (.accepted value left) := by
  intro result remaining same outside
  cases same
  exact ⟨left, rfl, replaced⟩

theorem Kept.andThen
    {α β : Type} {first second : Outcome α} {continuation : α → List Lexed → Outcome β}
    (kept : exchange.Kept first second)
    (fewer : ∀ value rest result left, continuation value rest = .accepted result left →
      left.length ≤ rest.length)
    (later : ∀ value rest left, first = .accepted value rest → exchange.Replaced rest left →
      exchange.Kept (continuation value rest) (continuation value left)) :
    exchange.Kept (first.andThen continuation) (second.andThen continuation) := by
  intro result left accepted outside
  obtain ⟨value, rest, found, continued⟩ := Outcome.andThen_eq_accepted accepted
  have within := fewer value rest result left continued
  obtain ⟨others, same, replaced⟩ := kept value rest found (by omega)
  rw [same, Outcome.andThen_accepted]
  exact later value rest others found replaced result left continued outside

theorem Kept.of_fewer
    {α : Type} {first : Outcome α}
    (fewer : first.Yields fun _ rest => rest.length ≤ exchange.after.length) (second : Outcome α) :
    exchange.Kept first second := by
  intro value rest accepted outside
  exact absurd outside (Nat.not_lt_of_le (fewer.of_eq accepted))

/-! ### Plans -/

variable {tokens others : List Lexed}

theorem run_kept
    {calls : Call → List Lexed → Outcome Node}
    (advance : ∀ call tokens, (calls call tokens).Advances (call.takes = true) tokens)
    (keep : ∀ call tokens others, exchange.Replaced tokens others →
      exchange.Kept (calls call tokens) (calls call others))
    (stops : Stops exchange.other.kind) {plan : Plan} (settles : plan.Settles)
    (replaced : exchange.Replaced tokens others) :
    exchange.Kept (plan.run calls tokens) (plan.run calls others) := by
  induction plan generalizing tokens others with
  | accept node => exact Kept.accepted replaced node
  | reject complaint =>
      intro node rest accepted
      cases tokens <;> cases accepted
  | fail failure =>
      intro node rest accepted
      cases tokens <;> cases accepted
  | look next inductionHypothesis =>
      obtain ⟨settlesNext, decides⟩ := settles exchange.next.kind exchange.next.lexeme
      cases replaced with
      | cons token later =>
          exact inductionHypothesis _ _ (settles token.kind token.lexeme).1 (Replaced.cons token later)
      | here =>
          -- This is the token that is looked at, and another stands in its place.
          rcases decides with takes | ⟨node, same, sameOther⟩
          · apply Kept.of_fewer
            apply (Plan.run_advances advance (next _ _) _).imp
            rintro node rest ⟨_, leaves⟩
            exact Nat.le_of_lt_succ (leaves takes).length_lt
          · rw [Plan.run, Plan.run, same, sameOther _ _ stops]
            exact Kept.accepted Replaced.here node
  | take next inductionHypothesis =>
      cases replaced with
      | cons token later => exact inductionHypothesis settles later
      | here =>
          apply Kept.of_fewer
          apply (Plan.run_advances advance next exchange.after).imp
          rintro node rest ⟨suffix, _⟩
          exact suffix.length_le
  | call first next inductionHypothesis =>
      apply (keep first tokens others replaced).andThen
      · intro node rest result left accepted
        exact ((Plan.run_advances advance (next node) rest).of_eq accepted).1.length_le
      · intro node rest left _ replaced
        exact inductionHypothesis node (settles node) replaced

theorem within_kept
    (stops : Stops exchange.other.kind) (allowance : Nat) (call : Call) (tokens others : List Lexed)
    (replaced : exchange.Replaced tokens others) :
    exchange.Kept (call.within allowance tokens) (call.within allowance others) := by
  induction allowance generalizing call tokens others with
  | zero =>
      rw [call.within_zero]
      intro node rest accepted
      cases accepted
  | succ allowance inductionHypothesis =>
      rw [Call.within_succ, Call.within_succ]
      exact run_kept (Call.within_advances allowance) inductionHypothesis stops call.plan_settles
        replaced

/-! ### Definitions -/

theorem prototype_kept (replaced : exchange.Replaced tokens others) :
    exchange.Kept (prototype tokens) (prototype others) := by
  intro head rest accepted outside
  obtain ⟨name, opening, names, closing, rfl, isName, isOpening, areNames, isClosing⟩ :=
    prototype_eq_accepted accepted
  have whole : name :: opening :: (names ++ closing :: rest) =
      (name :: opening :: (names ++ [closing])) ++ rest := by simp
  rw [prototype_eq isName isOpening areNames isClosing] at accepted
  rw [whole] at replaced
  obtain ⟨left, rfl, replacedRest⟩ := replaced.split outside
  have same := prototype_eq isName isOpening areNames isClosing left
  refine ⟨left, ?_, replacedRest⟩
  cases accepted
  simpa using same

theorem body_kept
    (stops : Stops exchange.other.kind) (replaced : exchange.Replaced tokens others) :
    exchange.Kept (Descent.body tokens) (Descent.body others) := by
  -- One allowance that suffices for both lists.
  let allowance := allowanceFor tokens + allowanceFor others
  rw [← bodyWithin_eq (Nat.le_add_right _ _ : _ ≤ allowance),
    ← bodyWithin_eq (Nat.le_add_left _ _ : _ ≤ allowance), bodyWithin_eq_run, bodyWithin_eq_run]
  exact run_kept (Call.within_advances allowance) (within_kept stops allowance) stops
    Plan.body_settles replaced

theorem body_fewer
    {node : Node} {rest : List Lexed} (accepted : Descent.body tokens = .accepted node rest) :
    rest.length < tokens.length := by
  rw [← bodyWithin_eq (Nat.le_refl _), bodyWithin_eq_run] at accepted
  obtain ⟨_, leaves⟩ := (Plan.run_advances (Call.within_advances _) Plan.body tokens).of_eq accepted
  exact (leaves Plan.body_takes).length_lt

end Exchange

/-- A definition is the same in front of every token that cannot continue it. -/
theorem definition_replaced
    {taken after : List Lexed} {next : Lexed} {function : Function}
    (accepted : Descent.definition (taken ++ next :: after) = .accepted function (next :: after))
    {other : Lexed} (stops : Stops other.kind) (beyond : List Lexed) :
    Descent.definition (taken ++ other :: beyond) = .accepted function (other :: beyond) := by
  let exchange : Exchange := ⟨next, after, other, beyond⟩
  unfold Descent.definition at accepted ⊢
  obtain ⟨head, afterHead, first, accepted⟩ := Outcome.andThen_eq_accepted accepted
  obtain ⟨body, rest, second, accepted⟩ := Outcome.andThen_eq_accepted accepted
  cases accepted
  have fewer := Exchange.body_fewer second
  rw [List.length_cons] at fewer
  have outside : exchange.after.length < afterHead.length := Nat.lt_of_succ_lt fewer
  obtain ⟨_, same, replaced⟩ :=
    Exchange.prototype_kept (exchange.replaced_append taken) _ _ first outside
  rw [same, Outcome.andThen_accepted]
  obtain ⟨left, same, replaced⟩ :=
    Exchange.body_kept stops replaced _ _ second (Nat.lt_succ_self _)
  rw [same, Outcome.andThen_accepted, replaced.eq_last]

end ExprWasm.Phrase
