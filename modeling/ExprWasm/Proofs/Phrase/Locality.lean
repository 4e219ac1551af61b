import ExprWasm.Proofs.Phrase.Rounds

/-! What is read does not depend on the numbers of lines, nor on what follows.

Two lists of tokens are compared: the second has tokens of the same kinds and texts, on lines that
are related to those of the first, and may go on where the first ends. Every phrase that is accepted
or rejected in the first is accepted or rejected in the second in the same way. -/

set_option autoImplicit false

namespace ExprWasm.Phrase

open Token (Kind Lexed)
open ExprWasm.Tree (Node Operator Function Prototype)

/-! ### Lists that go on -/

inductive Extends {α : Type} (related : α → α → Prop) (more : List α) : List α → List α → Prop where
  | stop : Extends related more [] more
  | cons {item other : α} {rest others : List α} (first : related item other)
      (later : Extends related more rest others) :
      Extends related more (item :: rest) (other :: others)

namespace Extends

variable {α : Type} {related : α → α → Prop} {more : List α}

theorem map_append
    (change : α → α) (changed : ∀ item, related item (change item)) (list more : List α) :
    Extends related more list (list.map change ++ more) := by
  induction list with
  | nil => exact stop
  | cons item rest inductionHypothesis => exact cons (changed item) inductionHypothesis

theorem eq_map_append
    (change : α → α) (determined : ∀ item other, related item other → other = change item)
    {list others : List α} (going : Extends related more list others) :
    others = list.map change ++ more := by
  induction going with
  | stop => rfl
  | cons first _ inductionHypothesis =>
      rw [determined _ _ first, inductionHypothesis]
      rfl

theorem of_map_eq
    {β : Type} (view : α → β) (relates : ∀ item other, view other = view item → related item other)
    {list others : List α} (same : others.map view = list.map view) :
    Extends related [] list others := by
  induction list generalizing others with
  | nil =>
      cases List.map_eq_nil_iff.mp same
      exact stop
  | cons item rest inductionHypothesis =>
      obtain ⟨other, later, rfl, sameItem, sameRest⟩ := List.map_eq_cons_iff.mp same
      exact cons (relates item other sameItem) (inductionHypothesis sameRest)

theorem map_eq
    {β : Type} (view : α → β)
    (preserved : ∀ item other, related item other → view other = view item)
    {list others : List α} (going : Extends related [] list others) :
    others.map view = list.map view := by
  induction going with
  | stop => rfl
  | cons first _ inductionHypothesis =>
      rw [List.map_cons, List.map_cons, preserved _ _ first, inductionHypothesis]

end Extends

/-! ### Outcomes in two lists -/

structure Alike (lines : Int → Int → Prop) (token other : Lexed) : Prop where
  kind : other.kind = token.kind
  lexeme : other.lexeme = token.lexeme
  line : lines token.line other.line

structure AlikeNotes (lines : Int → Int → Prop) (note other : Diagnostic) : Prop where
  line : lines note.line other.line
  message : other.message = note.message

theorem Alike.about
    {lines : Int → Int → Prop} {token other : Lexed} (alike : Alike lines token other)
    (complaint : Complaint) : AlikeNotes lines (complaint.about token) (complaint.about other) :=
  ⟨alike.line, rfl⟩

theorem Alike.eq_of
    {change : Int → Int} {token other : Lexed}
    (alike : Alike (fun line other => other = change line) token other) :
    other = { token with line := change token.line } := by
  obtain ⟨kind, lexeme, line⟩ := other
  obtain ⟨sameKind, sameLexeme, sameLine⟩ := alike
  exact congr (congr (congrArg Lexed.mk sameKind) sameLexeme) sameLine

theorem AlikeNotes.eq_of
    {change : Int → Int} {note other : Diagnostic}
    (alike : AlikeNotes (fun line other => other = change line) note other) :
    other = { note with line := change note.line } := by
  obtain ⟨line, message⟩ := other
  obtain ⟨sameLine, sameMessage⟩ := alike
  exact congr (congrArg Diagnostic.mk sameLine) sameMessage

section Outcomes

variable {lines : Int → Int → Prop} {more : List Lexed} {α β : Type}

variable (lines more) in
inductive Follows (values : α → α → Prop) : Outcome α → Outcome α → Prop where
  | accepted {value other : α} {rest others : List Lexed} (same : values value other)
      (later : Extends (Alike lines) more rest others) :
      Follows values (.accepted value rest) (.accepted other others)
  | rejected {diagnostic other : Diagnostic} {rest others : List Lexed}
      (same : AlikeNotes lines diagnostic other)
      (later : Extends (Alike lines) more rest others) :
      Follows values (.rejected diagnostic rest) (.rejected other others)
  | interrupted (outcome : Outcome α) : Follows values .interrupted outcome
  | failed (failure : Failure) : Follows values (.failed failure) (.failed failure)

theorem Follows.eq_accepted
    {values : α → α → Prop} {value : α} {rest : List Lexed} {second : Outcome α}
    (follows : Follows lines more values (.accepted value rest) second) :
    ∃ other others, second = .accepted other others ∧ values value other ∧
      Extends (Alike lines) more rest others := by
  cases follows with
  | accepted same later => exact ⟨_, _, rfl, same, later⟩

theorem Follows.eq_rejected
    {values : α → α → Prop} {diagnostic : Diagnostic} {rest : List Lexed} {second : Outcome α}
    (follows : Follows lines more values (.rejected diagnostic rest) second) :
    ∃ other others, second = .rejected other others ∧ AlikeNotes lines diagnostic other ∧
      Extends (Alike lines) more rest others := by
  cases follows with
  | rejected same later => exact ⟨_, _, rfl, same, later⟩

theorem Follows.andThen
    {values : α → α → Prop} {results : β → β → Prop} {first second : Outcome α}
    {continuation other : α → List Lexed → Outcome β}
    (follows : Follows lines more values first second)
    (next : ∀ value same rest others, values value same →
      Extends (Alike lines) more rest others →
      Follows lines more results (continuation value rest) (other same others)) :
    Follows lines more results (first.andThen continuation) (second.andThen other) := by
  cases follows with
  | accepted same later => exact next _ _ _ _ same later
  | rejected same later => exact Follows.rejected same later
  | interrupted outcome => exact Follows.interrupted _
  | failed failure => exact Follows.failed failure

theorem expect_follows
    {tokens others : List Lexed} (later : Extends (Alike lines) more tokens others)
    (kind : Kind) (complaint : Complaint) :
    Follows lines more (Alike lines) (expect kind complaint tokens)
      (expect kind complaint others) := by
  cases later with
  | stop => exact Follows.interrupted _
  | @cons token other rest others alike later =>
      rw [expect, expect, alike.kind]
      by_cases found : token.kind = kind
      · rw [if_pos found, if_pos found]
        exact Follows.accepted alike later
      · rw [if_neg found, if_neg found]
        exact Follows.rejected (alike.about complaint) (Extends.cons alike later)

/-! ### Expressions -/

theorem Plan.run_follows
    {calls : Call → List Lexed → Outcome Node}
    (follow : ∀ call tokens others, Extends (Alike lines) more tokens others →
      Follows lines more Eq (calls call tokens) (calls call others))
    (plan : Plan) {tokens others : List Lexed} (later : Extends (Alike lines) more tokens others) :
    Follows lines more Eq (plan.run calls tokens) (plan.run calls others) := by
  induction plan generalizing tokens others with
  | accept node => exact Follows.accepted rfl later
  | reject complaint =>
      cases later with
      | stop => exact Follows.interrupted _
      | cons alike later =>
          exact Follows.rejected (alike.about complaint) (Extends.cons alike later)
  | fail failure =>
      cases later with
      | stop => exact Follows.interrupted _
      | cons alike later => exact Follows.failed failure
  | look next inductionHypothesis =>
      cases later with
      | stop => exact Follows.interrupted _
      | @cons token other rest others alike later =>
          rw [run, run, alike.kind, alike.lexeme]
          exact inductionHypothesis token.kind token.lexeme (Extends.cons alike later)
  | take next inductionHypothesis =>
      cases later with
      | stop => exact Follows.interrupted _
      | cons alike later => exact inductionHypothesis later
  | call first next inductionHypothesis =>
      apply (follow first tokens others later).andThen
      intro node same rest others equal later
      subst equal
      exact inductionHypothesis node later

theorem Call.within_follows
    (allowance : Nat) (call : Call) (tokens others : List Lexed)
    (later : Extends (Alike lines) more tokens others) :
    Follows lines more Eq (call.within allowance tokens) (call.within allowance others) := by
  refine @within_of_step
    (fun _ reads => ∀ tokens others, Extends (Alike lines) more tokens others →
      Follows lines more Eq (reads tokens) (reads others))
    (fun _ _ _ _ => Follows.interrupted _) ?_ allowance call tokens others later
  intro calls follow call tokens others later
  exact call.plan.run_follows follow later

/-! ### Definitions -/

/-- The names at the beginning, unless the first list ends with them. -/
theorem parameters_alike
    {tokens others : List Lexed} (later : Extends (Alike lines) more tokens others) :
    afterParameters tokens = [] ∨
      (parameters others = parameters tokens ∧
        Extends (Alike lines) more (afterParameters tokens) (afterParameters others)) := by
  induction later with
  | stop => exact Or.inl rfl
  | @cons token other rest others alike later inductionHypothesis =>
      unfold parameters afterParameters at *
      by_cases isName : token.kind = .identifier
      · have otherName : other.kind = .identifier := alike.kind.trans isName
        simp only [List.dropWhile_cons, List.takeWhile_cons, isName, otherName, decide_true,
          if_true]
        rcases inductionHypothesis with ended | ⟨names, remaining⟩
        · exact Or.inl ended
        · refine Or.inr ⟨?_, remaining⟩
          rw [List.map_cons, List.map_cons, names, alike.lexeme]
      · have otherName : other.kind ≠ .identifier := alike.kind ▸ isName
        simp only [List.dropWhile_cons, List.takeWhile_cons, isName, otherName, decide_false,
          Bool.false_eq_true, if_false]
        exact Or.inr ⟨trivial, Extends.cons alike later⟩

theorem prototype_follows
    {tokens others : List Lexed} (later : Extends (Alike lines) more tokens others) :
    Follows lines more Eq (prototype tokens) (prototype others) := by
  apply (expect_follows later _ _).andThen
  intro name sameName rest others alikeName later
  apply (expect_follows later _ _).andThen
  intro _ _ rest others _ later
  rcases parameters_alike later with ended | ⟨names, remaining⟩
  · rw [ended]
    exact Follows.interrupted _
  · apply (expect_follows remaining _ _).andThen
    intro _ _ after others _ later
    refine Follows.accepted ?_ later
    rw [names, alikeName.lexeme]

theorem definitionWithin_follows
    (allowance : Nat) {tokens others : List Lexed}
    (later : Extends (Alike lines) more tokens others) :
    Follows lines more Eq (definitionWithin allowance tokens)
      (definitionWithin allowance others) := by
  apply (prototype_follows later).andThen
  intro head same rest others equal later
  subst equal
  rw [bodyWithin_eq_run, bodyWithin_eq_run]
  apply (Plan.body.run_follows (Call.within_follows allowance) later).andThen
  intro body same rest others equal later
  subst equal
  exact Follows.accepted rfl later

theorem definition_follows
    {tokens others : List Lexed} (later : Extends (Alike lines) more tokens others) :
    Follows lines more Eq (Descent.definition tokens) (Descent.definition others) := by
  have follows := definitionWithin_follows (allowanceFor tokens + allowanceFor others) later
  rw [definitionWithin_eq (Nat.le_add_right _ _), definitionWithin_eq (Nat.le_add_left _ _)]
    at follows
  exact follows

/-! ### Rounds -/

variable (lines) in
structure Continues (base findings continued : Findings) : Prop where
  functions : continued.functions = findings.functions ++ base.functions
  notes : Extends (AlikeNotes lines) base.diagnostics findings.diagnostics continued.diagnostics

namespace Continues

variable {base findings continued : Findings}

theorem diagnose
    (continues : Continues lines base findings continued) {note other : Diagnostic}
    (alike : AlikeNotes lines note other) :
    Continues lines base (findings.diagnose note) (continued.diagnose other) :=
  ⟨continues.functions, Extends.cons alike continues.notes⟩

theorem define (continues : Continues lines base findings continued) (function : Function) :
    Continues lines base (findings.define function) (continued.define function) :=
  ⟨congrArg (function :: ·) continues.functions, continues.notes⟩

end Continues

theorem skipToBoundary_follows
    {tokens others : List Lexed} (later : Extends (Alike lines) more tokens others)
    (complete : Complete tokens) (skipped : Nat) :
    Extends (Alike lines) more (skipToBoundary skipped tokens).2
      (skipToBoundary skipped others).2 := by
  induction later generalizing skipped with
  | stop => exact absurd rfl complete.ne_nil
  | @cons token other rest others alike later inductionHypothesis =>
      rw [skipToBoundary, skipToBoundary, alike.kind]
      cases bounds : isBoundary token.kind with
      | true => exact Extends.cons alike later
      | false => exact inductionHypothesis (complete.tail bounds) (skipped + 1)

theorem recover_follows
    {tokens others : List Lexed} (later : Extends (Alike lines) more tokens others)
    (complete : Complete tokens) {base findings continued : Findings}
    (continues : Continues lines base findings continued) :
    Continues lines base (recover findings tokens).1 (recover continued others).1 ∧
      Extends (Alike lines) more (recover findings tokens).2 (recover continued others).2 := by
  obtain ⟨functions, diagnostics, reached⟩ := recover_fields findings tokens
  obtain ⟨otherFunctions, otherDiagnostics, otherReached⟩ := recover_fields continued others
  refine ⟨⟨?_, ?_⟩, ?_⟩
  · rw [functions, otherFunctions]
    exact continues.functions
  · rw [diagnostics, otherDiagnostics]
    exact continues.notes
  · rw [reached, otherReached]
    exact skipToBoundary_follows later complete 0

theorem item_follows
    {token : Lexed} {rest others : List Lexed}
    (later : Extends (Alike lines) more (token :: rest) others)
    (complete : Complete (token :: rest)) {base findings continued : Findings}
    (continues : Continues lines base findings continued) :
    Continues lines base (Descent.item findings (token :: rest)).1
        (Descent.item continued others).1 ∧
      Extends (Alike lines) more (Descent.item findings (token :: rest)).2
        (Descent.item continued others).2 := by
  cases later with
  | @cons _ other _ others alike later =>
      rw [Descent.item, Descent.item, alike.kind]
      by_cases isDefine : token.kind = .define
      · rw [if_pos isDefine, if_pos isDefine]
        have completeRest := complete.tail (by rw [isDefine]; rfl)
        have decided := Descent.definition_decided completeRest
        have follows := definition_follows later
        cases found : Descent.definition rest with
        | accepted function after =>
            rw [found] at follows
            obtain ⟨other, othersAfter, same, equal, later⟩ := follows.eq_accepted
            subst equal
            rw [same]
            exact ⟨continues.define function, later⟩
        | rejected diagnostic after =>
            rw [found] at follows decided
            obtain ⟨taken, _, splits, _⟩ := decided
            obtain ⟨other, othersAfter, same, alikeNotes, later⟩ := follows.eq_rejected
            rw [same]
            exact recover_follows later (completeRest.of_splits splits)
              (continues.diagnose alikeNotes)
        | interrupted => rw [found] at decided; exact decided.elim
        | failed failure => rw [found] at decided; exact decided.elim
      · rw [if_neg isDefine, if_neg isDefine]
        exact recover_follows (Extends.cons alike later) complete
          (continues.diagnose (alike.about _))

theorem terminator_follows
    {token : Lexed} {rest others : List Lexed}
    (later : Extends (Alike lines) more (token :: rest) others)
    {base findings continued : Findings} (continues : Continues lines base findings continued) :
    Continues lines base (terminator findings (token :: rest)).1
        (terminator continued others).1 ∧
      Extends (Alike lines) more (terminator findings (token :: rest)).2
        (terminator continued others).2 := by
  cases later with
  | @cons _ other _ others alike later =>
      rw [terminator, terminator, alike.kind]
      by_cases isSemicolon : token.kind = .semicolon
      · rw [if_pos isSemicolon, if_pos isSemicolon]
        exact ⟨continues, later⟩
      · rw [if_neg isSemicolon, if_neg isSemicolon]
        exact ⟨continues.diagnose (alike.about _), Extends.cons alike later⟩

theorem round_follows
    {token : Lexed} {rest others : List Lexed}
    (later : Extends (Alike lines) more (token :: rest) others)
    (complete : Complete (token :: rest)) {base findings continued : Findings}
    (continues : Continues lines base findings continued) :
    Continues lines base (Descent.round findings (token :: rest)).1
        (Descent.round continued others).1 ∧
      Extends (Alike lines) more (Descent.round findings (token :: rest)).2
        (Descent.round continued others).2 := by
  obtain ⟨continuesItem, laterItem⟩ := item_follows later complete continues
  unfold Descent.round
  rcases item_cases complete findings with
    ⟨function, taken, next, after, _, _, _, reads⟩ |
    ⟨diagnostic, final, taken, next, after, _, _, reads, _, _⟩
  · rw [reads] at continuesItem laterItem ⊢
    exact terminator_follows laterItem continuesItem
  · rw [reads] at continuesItem laterItem ⊢
    exact terminator_follows laterItem continuesItem

/-- Rounds go on in the same way where the tokens go on, on other lines and after other findings. -/
theorem Rounds.follows
    {findings later : Findings} {tokens remaining : List Lexed}
    (rounds : Rounds findings tokens later remaining) (closed : Closed tokens)
    {others : List Lexed} (extended : Extends (Alike lines) more tokens others)
    {base continued : Findings} (continues : Continues lines base findings continued) :
    ∃ final rest, Rounds continued others final rest ∧ Continues lines base later final ∧
      Extends (Alike lines) more remaining rest := by
  induction rounds generalizing others continued with
  | none findings tokens => exact ⟨continued, others, Rounds.none _ _, continues, extended⟩
  | @more findings later token rest remaining inside _ inductionHypothesis =>
      obtain ⟨continuesRound, extendedRound⟩ := round_follows extended closed.complete continues
      obtain ⟨final, reached, rounds, continuesFinal, extendedFinal⟩ :=
        inductionHypothesis (closed.round inside findings) extendedRound continuesRound
      cases extended with
      | cons alike extended =>
          exact ⟨final, reached, Rounds.more (alike.kind ▸ inside) rounds, continuesFinal,
            extendedFinal⟩

end Outcomes

/-- The findings of rounds come on top of those before, on lines that are changed with the tokens.
-/
theorem Rounds.relocate
    {later : Findings} {tokens remaining : List Lexed} (rounds : Rounds {} tokens later remaining)
    (closed : Closed tokens) (change : Int → Int) (more : List Lexed) (base : Findings) :
    ∃ final,
      Rounds base (tokens.map (fun token => { token with line := change token.line }) ++ more) final
        (remaining.map (fun token => { token with line := change token.line }) ++ more) ∧
      final.functions = later.functions ++ base.functions ∧
      final.diagnostics =
        later.diagnostics.map (fun note => { note with line := change note.line }) ++
          base.diagnostics := by
  have changed (token : Lexed) :
      Alike (fun line other => other = change line) token
        { token with line := change token.line } := ⟨rfl, rfl, rfl⟩
  have start : Continues (fun line other => other = change line) base {} base :=
    ⟨rfl, Extends.stop⟩
  obtain ⟨final, rest, roundsOn, continues, reached⟩ :=
    rounds.follows closed (Extends.map_append _ changed tokens more) start
  have notes := Extends.eq_map_append _ (fun _ _ => AlikeNotes.eq_of) continues.notes
  have tokensLeft := Extends.eq_map_append _ (fun _ _ => Alike.eq_of) reached
  subst tokensLeft
  exact ⟨final, roundsOn, continues.functions, notes⟩

end ExprWasm.Phrase
