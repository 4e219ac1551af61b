import ExprWasm.Proofs.Phrase.Definition

/-! One token of lookahead.

Whether a phrase is accepted or rejected, what is left begins with the last token that was looked
at: with other tokens behind that one the outcome is the same. Nor does any phrase fail. Operands
and waiting operators stay in balance, each kind with a precedence is an operator, and numbers are
spelled as numbers. -/

set_option autoImplicit false

namespace ExprWasm.Phrase

open Token (Kind Lexed)
open ExprWasm.Tree (Node Operator Prototype Function)

theorem Readable.of_suffix
    {tokens rest : List Lexed} (readable : Readable tokens) (suffix : rest <:+ tokens) :
    Readable rest :=
  fun token member => readable token (suffix.subset member)

section Parameters

variable {token : Lexed}

theorem parameters_name (isName : token.kind = .identifier) (rest : List Lexed) :
    parameters (token :: rest) = token.lexeme :: parameters rest := by
  simp [parameters, isName]

theorem parameters_other (other : token.kind ≠ .identifier) (rest : List Lexed) :
    parameters (token :: rest) = [] := by
  simp [parameters, other]

theorem afterParameters_name (isName : token.kind = .identifier) (rest : List Lexed) :
    afterParameters (token :: rest) = afterParameters rest := by
  simp [afterParameters, isName]

theorem afterParameters_other (other : token.kind ≠ .identifier) (rest : List Lexed) :
    afterParameters (token :: rest) = token :: rest := by
  simp [afterParameters, other]

end Parameters

/-- A plan that fails at no token, if numbers are spelled as numbers. -/
def Plan.Unfailing : Plan → Prop
  | accept _ => True
  | reject _ => True
  | fail _ => False
  | look next =>
      ∀ kind lexeme, (kind = .number → (Number.Decimal.read? lexeme.toList).isSome = true) →
        (next kind lexeme).Unfailing
  | take next => next.Unfailing
  | call _ next => ∀ node, (next node).Unfailing

theorem Plan.unfailing_expect
    {next : Plan} (unfailing : next.Unfailing) (kind : Kind) (complaint : Complaint) :
    (expect kind complaint next).Unfailing := by
  intro found _ _
  simp only
  split
  · exact unfailing
  · trivial

/-- Operands and waiting operators stay in balance, and each kind that binds is an operator. -/
theorem Call.plan_unfailing {call : Call} (stacked : call.Stacked) : call.plan.Unfailing := by
  cases call with
  | expression => exact fun _ _ => trivial
  | chain operands waiting =>
      obtain ⟨current, stack, ordered, rfl, rfl⟩ := stacked
      intro kind lexeme _
      simp only [reduceFrom_eq_unwind]
      by_cases foreign : kind.precedence = 0
      · have ends := @Descent.resume_of_foreign _ _ ⟨kind, lexeme, 0⟩ ordered foreign current []
        rw [foreign, ends.2]
        trivial
      · obtain ⟨tier, operator, own, meant⟩ := Tier.exists_of_precedence_ne_zero foreign
        rw [if_neg foreign, meant]
        exact fun _ _ => trivial
  | factor =>
      intro kind lexeme spelled
      simp only
      split
      · exact fun _ => trivial
      · obtain ⟨decimal, read⟩ := Option.isSome_iff_exists.mp (spelled rfl)
        rw [read]
        trivial
      · exact fun _ => trivial
      · intro node
        apply Plan.unfailing_expect
        trivial
      · trivial
  | name callee =>
      intro kind _ _
      simp only
      split
      · intro kind _ _
        simp only
        split
        · trivial
        · exact fun _ => trivial
      · trivial
  | arguments callee found =>
      intro argument kind _ _
      simp only
      split
      · trivial
      · split
        · exact fun _ => trivial
        · trivial

theorem Plan.conditional_unfailing : conditional.Unfailing := by
  intro condition
  apply unfailing_expect
  intro whenTrue
  apply unfailing_expect
  exact fun whenFalse => trivial

theorem Plan.body_unfailing : body.Unfailing := by
  intro kind _ _
  simp only
  split
  · exact conditional_unfailing
  · exact fun _ => trivial

/-- What is left after a phrase is part of the tokens, and no rule is broken. -/
def Outcome.Remains {α : Type} (tokens : List Lexed) : Outcome α → Prop
  | .accepted _ rest => rest <:+ tokens
  | .rejected _ rest => rest <:+ tokens
  | .interrupted => True
  | .failed _ => False

structure Fork where
  after : List Lexed
  beyond : List Lexed

namespace Fork

variable {α β : Type} {fork : Fork}

/-- The second list is the same as the first up to the fork. Of a list that begins after the fork
nothing is said. -/
def Parallel (fork : Fork) (tokens others : List Lexed) : Prop :=
  fork.after.length < tokens.length →
    ∃ seen, tokens = seen ++ fork.after ∧ others = seen ++ fork.beyond

theorem Parallel.past
    {tokens : List Lexed} (passed : ¬ fork.after.length < tokens.length) (others : List Lexed) :
    fork.Parallel tokens others :=
  fun visible => absurd visible passed

theorem Parallel.uncons
    {token : Lexed} {rest others : List Lexed} (parallel : fork.Parallel (token :: rest) others)
    (visible : fork.after.length < (token :: rest).length) :
    ∃ left, others = token :: left ∧ fork.Parallel rest left := by
  obtain ⟨seen, split, same⟩ := parallel visible
  cases seen with
  | nil =>
      rw [List.nil_append] at split
      rw [← split] at visible
      exact absurd visible (Nat.lt_irrefl _)
  | cons first seen =>
      obtain ⟨rfl, splitRest⟩ := List.cons.inj split
      exact ⟨seen ++ fork.beyond, same, fun _ => ⟨seen, splitRest, rfl⟩⟩

/-- The second outcome is the same as the first if what is left then begins before the fork. -/
def Echoes (fork : Fork) (tokens : List Lexed) (first second : Outcome α) : Prop :=
  match first with
  | .accepted value rest => rest <:+ tokens ∧ (fork.after.length < rest.length →
      ∃ left, second = .accepted value left ∧ fork.Parallel rest left)
  | .rejected diagnostic rest => rest <:+ tokens ∧ (fork.after.length < rest.length →
      ∃ left, second = .rejected diagnostic left ∧ fork.Parallel rest left)
  | .interrupted => True
  | .failed _ => False

namespace Echoes

variable {tokens rest left others : List Lexed} {first second : Outcome α}

theorem accepted (parallel : fork.Parallel rest left) (value : α) :
    fork.Echoes rest (.accepted value rest) (.accepted value left) :=
  ⟨List.suffix_refl _, fun _ => ⟨left, rfl, parallel⟩⟩

theorem rejected (parallel : fork.Parallel rest left) (diagnostic : Diagnostic) :
    fork.Echoes rest (.rejected diagnostic rest) (.rejected diagnostic left : Outcome α) :=
  ⟨List.suffix_refl _, fun _ => ⟨left, rfl, parallel⟩⟩

theorem remains (echoes : fork.Echoes tokens first second) : first.Remains tokens := by
  cases first with
  | accepted value rest => exact echoes.1
  | rejected diagnostic rest => exact echoes.1
  | interrupted => trivial
  | failed failure => exact echoes

theorem widen (echoes : fork.Echoes rest first second) (suffix : rest <:+ tokens) :
    fork.Echoes tokens first second := by
  cases first with
  | accepted value left => exact ⟨echoes.1.trans suffix, echoes.2⟩
  | rejected diagnostic left => exact ⟨echoes.1.trans suffix, echoes.2⟩
  | interrupted => trivial
  | failed failure => exact echoes

/-- After the fork any second outcome will do. -/
theorem past
    (echoes : fork.Echoes tokens first second) (passed : ¬ fork.after.length < tokens.length)
    (other : Outcome α) : fork.Echoes tokens first other := by
  have hidden {left : List Lexed} (suffix : left <:+ tokens) : ¬ fork.after.length < left.length := by
    have fewer := suffix.length_le
    omega
  cases first with
  | accepted value left => exact ⟨echoes.1, fun visible => absurd visible (hidden echoes.1)⟩
  | rejected diagnostic left => exact ⟨echoes.1, fun visible => absurd visible (hidden echoes.1)⟩
  | interrupted => trivial
  | failed failure => exact echoes

/-- A procedure that looks at the first token sees the same one in both lists. -/
theorem of_cons
    {token : Lexed} {procedure : List Lexed → Outcome α}
    (parallel : fork.Parallel (token :: rest) others)
    (same : ∀ left, fork.Parallel (token :: rest) (token :: left) → fork.Parallel rest left →
      fork.Echoes (token :: rest) first (procedure (token :: left))) :
    fork.Echoes (token :: rest) first (procedure others) := by
  by_cases visible : fork.after.length < (token :: rest).length
  · obtain ⟨left, rfl, later⟩ := parallel.uncons visible
    exact same left parallel later
  · have hidden : ¬ fork.after.length < rest.length := by
      rw [List.length_cons] at visible
      omega
    exact (same rest (Parallel.past visible _) (Parallel.past hidden _)).past visible _

theorem andThen
    {continuation continuation' : α → List Lexed → Outcome β}
    (echoes : fork.Echoes tokens first second)
    (later : ∀ value rest left, first = .accepted value rest → rest <:+ tokens →
      fork.Parallel rest left →
      fork.Echoes rest (continuation value rest) (continuation' value left)) :
    fork.Echoes tokens (first.andThen continuation) (second.andThen continuation') := by
  cases first with
  | accepted value rest =>
      obtain ⟨suffix, same⟩ := echoes
      rw [Outcome.andThen_accepted]
      by_cases visible : fork.after.length < rest.length
      · obtain ⟨left, rfl, parallel⟩ := same visible
        exact (later value rest left rfl suffix parallel).widen suffix
      · have anywhere := later value rest rest rfl suffix (Parallel.past visible _)
        exact (anywhere.past visible _).widen suffix
  | rejected diagnostic rest =>
      obtain ⟨suffix, same⟩ := echoes
      refine ⟨suffix, fun visible => ?_⟩
      obtain ⟨left, rfl, parallel⟩ := same visible
      exact ⟨left, rfl, parallel⟩
  | interrupted => trivial
  | failed failure => exact echoes

end Echoes

theorem expect_echoes
    {tokens others : List Lexed} (parallel : fork.Parallel tokens others) (kind : Kind)
    (complaint : Complaint) :
    fork.Echoes tokens (expect kind complaint tokens) (expect kind complaint others) := by
  cases tokens with
  | nil => trivial
  | cons token rest =>
      apply Echoes.of_cons parallel
      intro left parallel later
      rw [expect, expect]
      split
      · exact (Echoes.accepted later token).widen (List.suffix_cons token rest)
      · exact Echoes.rejected parallel _

/-! ### Expressions -/

variable {tokens others : List Lexed}

theorem run_echoes
    {calls : Call → List Lexed → Outcome Node}
    (echo : ∀ call tokens others, call.Stacked → Readable tokens → fork.Parallel tokens others →
      fork.Echoes tokens (calls call tokens) (calls call others))
    {plan : Plan} (stacked : ∀ count, plan.Calls (fun first _ => first.Stacked) count)
    (unfailing : plan.Unfailing) (readable : Readable tokens)
    (parallel : fork.Parallel tokens others) :
    fork.Echoes tokens (plan.run calls tokens) (plan.run calls others) := by
  induction plan generalizing tokens others with
  | accept node => exact Echoes.accepted parallel node
  | reject complaint =>
      cases tokens with
      | nil => trivial
      | cons token rest =>
          apply @Echoes.of_cons _ _ _ _ _ _ (Plan.run calls (.reject complaint)) parallel
          intro left parallel _
          exact Echoes.rejected parallel _
  | fail failure => exact unfailing.elim
  | look next inductionHypothesis =>
      cases tokens with
      | nil => trivial
      | cons token rest =>
          apply @Echoes.of_cons _ _ _ _ _ _ (Plan.run calls (.look next)) parallel
          intro left parallel _
          exact inductionHypothesis token.kind token.lexeme
            (fun count => stacked count token.kind token.lexeme)
            (unfailing _ _ (readable token (List.mem_cons_self ..))) readable parallel
  | take next inductionHypothesis =>
      cases tokens with
      | nil => trivial
      | cons token rest =>
          have suffix := List.suffix_cons token rest
          apply @Echoes.of_cons _ _ _ _ _ _ (Plan.run calls (.take next)) parallel
          intro left _ later
          have stackedNext count := stacked (count + 1) count (Nat.lt_succ_self count)
          exact (inductionHypothesis stackedNext unfailing (readable.of_suffix suffix) later).widen
            suffix
  | call first next inductionHypothesis =>
      apply (echo first tokens others (stacked 0).1 readable parallel).andThen
      intro node rest left _ suffix parallel
      have stackedNext count := (stacked (count + 1)).2 node count (Nat.le_succ count)
        fun _ => Nat.lt_succ_self count
      exact inductionHypothesis node stackedNext (unfailing node) (readable.of_suffix suffix) parallel

theorem within_echoes
    (allowance : Nat) (call : Call) (tokens others : List Lexed) (stacked : call.Stacked)
    (readable : Readable tokens) (parallel : fork.Parallel tokens others) :
    fork.Echoes tokens (call.within allowance tokens) (call.within allowance others) := by
  refine @Call.within_of_step
    (fun call reads => ∀ tokens others, call.Stacked → Readable tokens →
      fork.Parallel tokens others → fork.Echoes tokens (reads tokens) (reads others))
    (fun _ _ _ _ _ _ => trivial) ?_ allowance call tokens others stacked readable parallel
  intro calls echo call tokens others stacked readable parallel
  exact run_echoes echo (Call.plan_stacked stacked) (Call.plan_unfailing stacked) readable parallel

/-! ### Definitions -/

theorem afterParameters_suffix (tokens : List Lexed) : afterParameters tokens <:+ tokens :=
  List.dropWhile_suffix _

/-- The names at the beginning are the same, if what follows them begins before the fork. -/
theorem afterParameters_parallel
    (parallel : fork.Parallel tokens others)
    (visible : fork.after.length < (afterParameters tokens).length) :
    fork.Parallel (afterParameters tokens) (afterParameters others) ∧
      parameters tokens = parameters others := by
  induction tokens generalizing others with
  | nil => cases visible
  | cons token rest inductionHypothesis =>
      have within := (afterParameters_suffix (token :: rest)).length_le
      obtain ⟨left, rfl, later⟩ := parallel.uncons (Nat.lt_of_lt_of_le visible within)
      by_cases isName : token.kind = .identifier
      · rw [afterParameters_name isName] at visible
        obtain ⟨parallel, same⟩ := inductionHypothesis later visible
        rw [afterParameters_name isName, afterParameters_name isName, parameters_name isName,
          parameters_name isName, same]
        exact ⟨parallel, rfl⟩
      · rw [afterParameters_other isName, afterParameters_other isName, parameters_other isName,
          parameters_other isName]
        exact ⟨parallel, rfl⟩

theorem prototype_echoes (parallel : fork.Parallel tokens others) :
    fork.Echoes tokens (prototype tokens) (prototype others) := by
  unfold prototype
  apply (expect_echoes parallel _ _).andThen
  intro name rest left _ _ parallel
  apply (expect_echoes parallel _ _).andThen
  intro opening rest left _ _ parallel
  have parallelAfter : fork.Parallel (afterParameters rest) (afterParameters left) :=
    fun visible => (afterParameters_parallel parallel visible).1 visible
  refine Echoes.widen ((expect_echoes parallelAfter _ _).andThen ?_) (afterParameters_suffix rest)
  intro closing further beyond _ within parallelFurther
  refine ⟨List.suffix_refl _, fun visible => ⟨beyond, ?_, parallelFurther⟩⟩
  have visibleAfter := Nat.lt_of_lt_of_le visible within.length_le
  rw [(afterParameters_parallel parallel visibleAfter).2]

theorem definition_echoes
    (readable : Readable tokens) (parallel : fork.Parallel tokens others) (allowance : Nat) :
    fork.Echoes tokens (definitionWithin allowance tokens) (definitionWithin allowance others) := by
  unfold definitionWithin
  apply (prototype_echoes parallel).andThen
  intro head rest left _ suffix parallel
  rw [bodyWithin_eq_run, bodyWithin_eq_run]
  apply (run_echoes (within_echoes allowance) Plan.body_stacked Plan.body_unfailing
    (readable.of_suffix suffix) parallel).andThen
  intro body rest left _ _ parallel
  exact Echoes.accepted parallel _

theorem Parallel.eq_cons
    {token : Lexed} {left : List Lexed} (parallel : fork.Parallel (token :: fork.after) left) :
    left = token :: fork.beyond := by
  obtain ⟨seen, split, same⟩ := parallel (Nat.lt_succ_self _)
  rw [← List.singleton_append] at split
  rw [← List.append_cancel_right split] at same
  exact same

theorem parallel_append (fork : Fork) (seen : List Lexed) :
    fork.Parallel (seen ++ fork.after) (seen ++ fork.beyond) :=
  fun _ => ⟨seen, rfl, rfl⟩

/-- A fork at the beginning leaves nothing to compare. -/
theorem hidden (tokens : List Lexed) : Fork.Parallel ⟨tokens, []⟩ tokens [] :=
  .past (Nat.lt_irrefl _) []

end Fork

/-- No procedure fails, and each leaves a part of the tokens. -/
theorem Call.within_remains
    {call : Call} {tokens : List Lexed} (stacked : call.Stacked) (readable : Readable tokens)
    (allowance : Nat) : (call.within allowance tokens).Remains tokens :=
  (Fork.within_echoes allowance call tokens [] stacked readable (Fork.hidden tokens)).remains

section Definition

variable {tokens : List Lexed} (readable : Readable tokens) (allowance : Nat)

include readable

theorem expressionWithin_remains : (expressionWithin allowance tokens).Remains tokens :=
  @Call.within_remains .expression _ trivial readable allowance

theorem definitionWithin_remains : (definitionWithin allowance tokens).Remains tokens :=
  (Fork.definition_echoes readable (Fork.hidden tokens) allowance).remains

theorem conditionalWithin_remains : (conditionalWithin allowance tokens).Remains tokens := by
  rw [conditionalWithin_eq_run]
  exact (Fork.run_echoes (Fork.within_echoes allowance) Plan.conditional_stacked
    Plan.conditional_unfailing readable (Fork.hidden tokens)).remains

end Definition

theorem prototype_remains (tokens : List Lexed) : (prototype tokens).Remains tokens :=
  (Fork.prototype_echoes (Fork.hidden tokens)).remains

theorem numeral_remains
    {token : Lexed} {rest : List Lexed} (readable : Readable (token :: rest))
    (isNumber : token.kind = .number) : (numeral token rest).Remains rest := by
  obtain ⟨decimal, read⟩ :=
    Option.isSome_iff_exists.mp (readable token List.mem_cons_self isNumber)
  rw [numeral, read]
  exact List.suffix_refl _

theorem definition_remains {tokens : List Lexed} (readable : Readable tokens) :
    (Descent.definition tokens).Remains tokens := by
  rw [← definitionWithin_eq (Nat.le_refl _)]
  exact definitionWithin_remains readable _

section Next

variable {seen after : List Lexed} {next : Lexed} (readable : Readable (seen ++ next :: after))
  (beyond : List Lexed)

include readable

theorem definition_echoes_next :
    Fork.Echoes ⟨after, beyond⟩ (seen ++ next :: after)
      (Descent.definition (seen ++ next :: after)) (Descent.definition (seen ++ next :: beyond)) := by
  have parallel := Fork.parallel_append ⟨after, beyond⟩ (seen ++ [next])
  simp only [List.append_assoc, List.singleton_append] at parallel
  -- One allowance that suffices for both lists.
  let allowance := allowanceFor (seen ++ next :: after) + allowanceFor (seen ++ next :: beyond)
  rw [← definitionWithin_eq (Nat.le_add_right _ _ : _ ≤ allowance),
    ← definitionWithin_eq (Nat.le_add_left _ _ : _ ≤ allowance)]
  exact Fork.definition_echoes readable parallel allowance

/-- Whatever comes behind the token that is looked at last, a definition is accepted alike. -/
theorem definition_accepted_next
    {function : Function}
    (accepts : Descent.definition (seen ++ next :: after) = .accepted function (next :: after)) :
    Descent.definition (seen ++ next :: beyond) = .accepted function (next :: beyond) := by
  have echoes := definition_echoes_next readable beyond
  rw [accepts] at echoes
  obtain ⟨left, same, parallel⟩ := echoes.2 (Nat.lt_succ_self _)
  rw [same, parallel.eq_cons]

/-- Whatever comes behind the token that is looked at last, a definition is rejected alike. -/
theorem definition_rejected_next
    {diagnostic : Diagnostic}
    (rejects : Descent.definition (seen ++ next :: after) = .rejected diagnostic (next :: after)) :
    Descent.definition (seen ++ next :: beyond) = .rejected diagnostic (next :: beyond) := by
  have echoes := definition_echoes_next readable beyond
  rw [rejects] at echoes
  obtain ⟨left, same, parallel⟩ := echoes.2 (Nat.lt_succ_self _)
  rw [same, parallel.eq_cons]

end Next

end ExprWasm.Phrase
