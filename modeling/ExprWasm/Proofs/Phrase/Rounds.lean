import ExprWasm.Compile.Source
import ExprWasm.Proofs.Phrase.Recognition

/-! The loop over a program, round by round.

A round reads a definition, or skips what stands in its place, and then the semicolon. On a list
that closes with a boundary every round takes at least one token and never the end of the input, so
the rounds lead to the end. A round leaves the diagnostics alone exactly when it takes a definition
of the grammar and its semicolon. -/

set_option autoImplicit false

namespace ExprWasm.Phrase

open Token (Kind Lexed)
open ExprWasm.Tree (Function)

/-! ### Lists that close with a boundary -/

def Unended (tokens : List Lexed) : Prop :=
  ∀ token ∈ tokens, token.kind ≠ .endOfInput

namespace Unended

theorem single {token : Lexed} (inside : token.kind ≠ .endOfInput) : Unended [token] := by
  intro other member
  rw [List.mem_singleton.mp member]
  exact inside

theorem append {first second : List Lexed} (before : Unended first) (after : Unended second) :
    Unended (first ++ second) := by
  intro token member
  rcases List.mem_append.mp member with inFirst | inSecond
  · exact before token inFirst
  · exact after token inSecond

theorem of_splits {tokens taken rest : List Lexed} (splits : Splits tokens taken rest) :
    Unended taken := by
  intro token member isEnding
  have bounded := splits.free token member
  rw [isEnding] at bounded
  cases bounded

end Unended

/-- The last token is a boundary, the end of the input is nowhere else, and all numbers can be
read. -/
structure Closed (tokens : List Lexed) : Prop where
  last : ∀ before token, tokens = before ++ [token] →
    isBoundary token.kind = true ∧ Unended before
  readable : Readable tokens

namespace Closed

theorem right {taken rest : List Lexed} (closed : Closed (taken ++ rest)) : Closed rest := by
  constructor
  · intro before token split
    have outer : taken ++ rest = (taken ++ before) ++ [token] := by
      rw [split, List.append_assoc]
    obtain ⟨bounds, absent⟩ := closed.last _ _ outer
    exact ⟨bounds, fun earlier member => absent earlier (List.mem_append_right _ member)⟩
  · exact closed.readable.right

theorem complete
    {token : Lexed} {rest : List Lexed} (closed : Closed (token :: rest)) :
    Complete (token :: rest) := by
  refine ⟨?_, closed.readable⟩
  have split := List.dropLast_concat_getLast (List.cons_ne_nil token rest)
  exact ⟨_, List.getLast_mem _, (closed.last _ _ split.symm).1⟩

theorem of_boundary
    {body : List Lexed} {boundary : Lexed} (bounds : isBoundary boundary.kind = true)
    (absent : Unended body) (readable : Readable body) : Closed (body ++ [boundary]) := by
  constructor
  · intro before token split
    obtain ⟨sameBefore, sameLast⟩ := List.append_inj' split rfl
    cases sameLast
    rw [← sameBefore]
    exact ⟨bounds, absent⟩
  · intro token member isNumber
    rcases List.mem_append.mp member with inBody | isLast
    · exact readable token inBody isNumber
    · rw [← List.mem_singleton.mp isLast, isNumber] at bounds
      cases bounds

theorem eq_nil_of_endOfInput
    {token : Lexed} {rest : List Lexed} (closed : Closed (token :: rest))
    (isEnding : token.kind = .endOfInput) : rest = [] := by
  cases rest with
  | nil => rfl
  | cons next after =>
      have split := List.dropLast_concat_getLast (List.cons_ne_nil token (next :: after))
      exact absurd isEnding ((closed.last _ _ split.symm).2 token (List.mem_cons_self ..))

end Closed

/-! ### One round -/

namespace Descent

def item (findings : Findings) : List Lexed → Findings × List Lexed
  | [] => (findings, [])
  | token :: rest =>
      if token.kind = .define then
        match definition rest with
        | .accepted function rest => (findings.define function, rest)
        | .rejected diagnostic rest => recover (findings.diagnose diagnostic) rest
        | .interrupted => (findings, [])
        | .failed _ => (findings, [])
      else recover (findings.diagnose (Complaint.definitionExpected.about token)) (token :: rest)

def round (findings : Findings) (tokens : List Lexed) : Findings × List Lexed :=
  terminator (item findings tokens).1 (item findings tokens).2

end Descent

theorem skipToBoundary_eq
    {tokens : List Lexed} (complete : Complete tokens) (skipped : Nat) :
    ∃ taken boundary rest, Splits tokens taken (boundary :: rest) ∧
      isBoundary boundary.kind = true ∧
      skipToBoundary skipped tokens = (skipped + taken.length, boundary :: rest) := by
  induction tokens generalizing skipped with
  | nil => exact absurd rfl complete.ne_nil
  | cons token tokens inductionHypothesis =>
      rw [skipToBoundary]
      cases bounds : isBoundary token.kind with
      | true => exact ⟨[], token, tokens, Splits.nil _, bounds, rfl⟩
      | false =>
          obtain ⟨taken, boundary, rest, splits, isBound, skips⟩ :=
            inductionHypothesis (complete.tail bounds) (skipped + 1)
          refine ⟨token :: taken, boundary, rest, splits.cons bounds, isBound, ?_⟩
          rw [if_neg Bool.false_ne_true, skips, List.length_cons, Nat.add_assoc,
            Nat.add_comm 1 taken.length]

/-- Recovery changes nothing but what is logged. -/
theorem recover_fields (findings : Findings) (tokens : List Lexed) :
    (recover findings tokens).1.functions = findings.functions ∧
      (recover findings tokens).1.diagnostics = findings.diagnostics ∧
      (recover findings tokens).2 = (skipToBoundary 0 tokens).2 := by
  unfold recover
  split
  · rename_i rest skips
    rw [skips]
    exact ⟨rfl, rfl, rfl⟩
  · rename_i skips
    rw [skips]
    exact ⟨rfl, rfl, rfl⟩
  · rename_i skips
    rw [skips]
    exact ⟨rfl, rfl, rfl⟩

theorem recover_eq
    {tokens : List Lexed} (complete : Complete tokens) (findings : Findings) :
    ∃ after taken boundary rest, Splits tokens taken (boundary :: rest) ∧
      isBoundary boundary.kind = true ∧
      recover findings tokens = (after, boundary :: rest) ∧
      after.functions = findings.functions ∧ after.diagnostics = findings.diagnostics := by
  obtain ⟨taken, boundary, rest, splits, bounds, skips⟩ := skipToBoundary_eq complete 0
  obtain ⟨functions, diagnostics, reached⟩ := recover_fields findings tokens
  rw [skips] at reached
  exact ⟨_, taken, boundary, rest, splits, bounds, Prod.ext rfl reached, functions, diagnostics⟩

theorem itemWithin_eq
    {allowance : Nat} {token : Lexed} {rest : List Lexed} (complete : Complete (token :: rest))
    (enough : allowanceFor (token :: rest) ≤ allowance) (findings : Findings) :
    itemWithin allowance findings (token :: rest) =
      .ok (Descent.item findings (token :: rest)) := by
  have enoughRest : allowanceFor rest ≤ allowance := by
    unfold allowanceFor at *
    rw [List.length_cons] at enough
    omega
  rw [itemWithin, Descent.item, definitionWithin_eq enoughRest]
  by_cases isDefine : token.kind = .define
  · rw [if_pos isDefine, if_pos isDefine]
    have completeRest := complete.tail (by rw [isDefine]; rfl)
    have decided := Descent.definition_decided completeRest
    cases taken : Descent.definition rest with
    | accepted function rest => rfl
    | rejected diagnostic rest => rfl
    | interrupted => rw [taken] at decided; exact decided.elim
    | failed failure => rw [taken] at decided; exact decided.elim
  · rw [if_neg isDefine, if_neg isDefine]

/-- What a round can do before the semicolon: it takes a definition, or it notes an error and goes
to the next boundary. -/
theorem item_cases
    {token : Lexed} {rest : List Lexed} (complete : Complete (token :: rest))
    (findings : Findings) :
    (∃ function taken next after,
      token.kind = .define ∧ Splits rest taken (next :: after) ∧
      Derives .definition (.define :: kinds taken) ∧
      Descent.item findings (token :: rest) = (findings.define function, next :: after)) ∨
    ∃ diagnostic later taken boundary after,
      Splits (token :: rest) taken (boundary :: after) ∧ isBoundary boundary.kind = true ∧
      Descent.item findings (token :: rest) = (later, boundary :: after) ∧
      later.functions = findings.functions ∧
      later.diagnostics = diagnostic :: findings.diagnostics := by
  rw [Descent.item]
  by_cases isDefine : token.kind = .define
  · rw [if_pos isDefine]
    have inside : isBoundary token.kind = false := by rw [isDefine]; rfl
    have completeRest := complete.tail inside
    have decided := Descent.definition_decided completeRest
    cases found : Descent.definition rest with
    | accepted function remaining =>
        rw [found] at decided
        obtain ⟨taken, splits, derived⟩ := decided
        cases remaining with
        | nil => exact absurd rfl (completeRest.of_splits splits).ne_nil
        | cons next after =>
            exact Or.inl ⟨function, taken, next, after, isDefine, splits, derived, rfl⟩
    | rejected diagnostic remaining =>
        rw [found] at decided
        obtain ⟨taken, _, splits, _⟩ := decided
        obtain ⟨later, skipped, boundary, after, splitsAgain, bounds, recovers, functions,
          diagnostics⟩ := recover_eq (completeRest.of_splits splits) (findings.diagnose diagnostic)
        exact Or.inr ⟨diagnostic, later, token :: (taken ++ skipped), boundary, after,
          (splits.append splitsAgain).cons inside, bounds, recovers, functions, diagnostics⟩
    | interrupted => rw [found] at decided; exact decided.elim
    | failed failure => rw [found] at decided; exact decided.elim
  · rw [if_neg isDefine]
    obtain ⟨later, skipped, boundary, after, splits, bounds, recovers, functions, diagnostics⟩ :=
      recover_eq complete (findings.diagnose (Complaint.definitionExpected.about token))
    exact Or.inr ⟨_, later, skipped, boundary, after, splits, bounds, recovers, functions,
      diagnostics⟩

theorem terminator_of_semicolon
    {token : Lexed} (isSemicolon : token.kind = .semicolon) (findings : Findings)
    (rest : List Lexed) : terminator findings (token :: rest) = (findings, rest) := by
  rw [terminator, if_pos isSemicolon]

theorem terminator_of_other
    {token : Lexed} (missing : token.kind ≠ .semicolon) (findings : Findings)
    (rest : List Lexed) :
    terminator findings (token :: rest) =
      (findings.diagnose (Complaint.semicolonMissing.about token), token :: rest) := by
  rw [terminator, if_neg missing]

theorem takes_semicolon
    {tokens before after : List Lexed} {semicolon : Lexed}
    (split : tokens = before ++ semicolon :: after) (isSemicolon : semicolon.kind = .semicolon)
    (absent : Unended before) :
    ∃ taken, tokens = taken ++ after ∧ taken ≠ [] ∧ Unended taken := by
  refine ⟨before ++ [semicolon], ?_, ?_, ?_⟩
  · rw [split, List.append_assoc, List.singleton_append]
  · exact List.append_ne_nil_of_right_ne_nil _ (List.cons_ne_nil _ _)
  · exact absent.append (Unended.single (by rw [isSemicolon]; decide))

/-- What a round can do: it takes a definition of the grammar and its semicolon, or it adds to the
diagnostics. The tokens it takes do not include the end of the input. -/
theorem round_cases
    {token : Lexed} {rest : List Lexed} (complete : Complete (token :: rest))
    (inside : token.kind ≠ .endOfInput) (findings : Findings) :
    (∃ function taken semicolon after,
      token :: rest = taken ++ semicolon :: after ∧ semicolon.kind = .semicolon ∧
      Unended taken ∧ Derives .definition (kinds taken) ∧
      Descent.round findings (token :: rest) = (findings.define function, after)) ∨
    ∃ taken,
      token :: rest = taken ++ (Descent.round findings (token :: rest)).2 ∧ taken ≠ [] ∧
      Unended taken ∧
      findings.diagnostics.length <
        (Descent.round findings (token :: rest)).1.diagnostics.length := by
  unfold Descent.round
  rcases item_cases complete findings with
    ⟨function, taken, next, after, isDefine, splits, derived, reads⟩ |
    ⟨diagnostic, later, taken, boundary, after, splits, bounds, reads, _, diagnostics⟩
  · have split : token :: rest = (token :: taken) ++ next :: after := by
      rw [splits.split, List.cons_append]
    have absent : Unended (token :: taken) :=
      (Unended.single inside).append (Unended.of_splits splits)
    rw [reads]
    by_cases isSemicolon : next.kind = .semicolon
    · left
      refine ⟨function, token :: taken, next, after, split, isSemicolon, absent, ?_, ?_⟩
      · rw [kinds_cons, isDefine]
        exact derived
      · exact terminator_of_semicolon isSemicolon _ _
    · right
      rw [terminator_of_other isSemicolon]
      exact ⟨token :: taken, split, List.cons_ne_nil _ _, absent, Nat.lt_succ_self _⟩
  · right
    have grown : findings.diagnostics.length < later.diagnostics.length := by
      rw [diagnostics]
      exact Nat.lt_succ_self _
    have absent := Unended.of_splits splits
    rw [reads]
    by_cases isSemicolon : boundary.kind = .semicolon
    · rw [terminator_of_semicolon isSemicolon]
      obtain ⟨all, split, nonempty, absentAll⟩ := takes_semicolon splits.split isSemicolon absent
      exact ⟨all, split, nonempty, absentAll, grown⟩
    · rw [terminator_of_other isSemicolon]
      refine ⟨taken, splits.split, ?_, absent, Nat.lt_succ_of_lt grown⟩
      -- With nothing taken the first token would be the boundary, and it is neither of the two.
      intro empty
      have split := splits.split
      rw [empty, List.nil_append] at split
      have same : token = boundary := (List.cons.inj split).1
      rw [← same] at bounds isSemicolon
      unfold isBoundary at bounds
      rw [decide_eq_false inside, decide_eq_false isSemicolon] at bounds
      cases bounds

theorem round_takes
    {token : Lexed} {rest : List Lexed} (complete : Complete (token :: rest))
    (inside : token.kind ≠ .endOfInput) (findings : Findings) :
    ∃ taken, token :: rest = taken ++ (Descent.round findings (token :: rest)).2 ∧ taken ≠ [] ∧
      Unended taken := by
  rcases round_cases complete inside findings with
    ⟨function, taken, semicolon, after, split, isSemicolon, absent, _, reads⟩ |
    ⟨taken, split, nonempty, absent, _⟩
  · rw [reads]
    exact takes_semicolon split isSemicolon absent
  · exact ⟨taken, split, nonempty, absent⟩

theorem round_shorter
    {token : Lexed} {rest : List Lexed} (complete : Complete (token :: rest))
    (inside : token.kind ≠ .endOfInput) (findings : Findings) :
    (Descent.round findings (token :: rest)).2.length < (token :: rest).length := by
  obtain ⟨taken, split, nonempty, _⟩ := round_takes complete inside findings
  have total := congrArg List.length split
  rw [List.length_append] at total
  have positive := List.length_pos_iff.mpr nonempty
  omega

theorem Closed.round
    {token : Lexed} {rest : List Lexed} (closed : Closed (token :: rest))
    (inside : token.kind ≠ .endOfInput) (findings : Findings) :
    Closed (Descent.round findings (token :: rest)).2 := by
  obtain ⟨taken, split, _⟩ := round_takes closed.complete inside findings
  rw [split] at closed
  exact closed.right

/-! ### All rounds -/

inductive Rounds : Findings → List Lexed → Findings → List Lexed → Prop where
  | none (findings : Findings) (tokens : List Lexed) : Rounds findings tokens findings tokens
  | more {findings later : Findings} {token : Lexed} {rest remaining : List Lexed}
      (inside : token.kind ≠ .endOfInput)
      (others : Rounds (Descent.round findings (token :: rest)).1
        (Descent.round findings (token :: rest)).2 later remaining) :
      Rounds findings (token :: rest) later remaining

namespace Rounds

theorem trans
    {first second third : Findings} {tokens middle remaining : List Lexed}
    (before : Rounds first tokens second middle) (after : Rounds second middle third remaining) :
    Rounds first tokens third remaining := by
  induction before with
  | none findings tokens => exact after
  | more inside _ inductionHypothesis => exact more inside (inductionHypothesis after)

theorem takes
    {findings later : Findings} {tokens remaining : List Lexed}
    (rounds : Rounds findings tokens later remaining) (closed : Closed tokens) :
    ∃ taken, tokens = taken ++ remaining ∧ Unended taken := by
  induction rounds with
  | none findings tokens => exact ⟨[], rfl, fun token member => nomatch member⟩
  | @more findings later token rest remaining inside _ inductionHypothesis =>
      obtain ⟨first, split, _, absentFirst⟩ := round_takes closed.complete inside findings
      obtain ⟨taken, splitAgain, absent⟩ := inductionHypothesis (closed.round inside findings)
      refine ⟨first ++ taken, ?_, absentFirst.append absent⟩
      rw [split, List.append_assoc, ← splitAgain]

/-- Every closed list is read up to the end of the input, or to its own end. -/
theorem exist {tokens : List Lexed} (closed : Closed tokens) (findings : Findings) :
    ∃ later remaining, Rounds findings tokens later remaining ∧
      ∀ token ∈ remaining, token.kind = .endOfInput := by
  generalize counted : tokens.length = count
  induction count using Nat.strongRecOn generalizing tokens findings with
  | _ count inductionHypothesis =>
      cases tokens with
      | nil => exact ⟨findings, [], none _ _, fun token member => nomatch member⟩
      | cons token rest =>
          by_cases isEnding : token.kind = .endOfInput
          · refine ⟨findings, token :: rest, none _ _, ?_⟩
            rw [closed.eq_nil_of_endOfInput isEnding]
            intro other member
            rw [List.mem_singleton.mp member]
            exact isEnding
          · have shorter := round_shorter closed.complete isEnding findings
            rw [counted] at shorter
            obtain ⟨later, remaining, rounds, ended⟩ :=
              inductionHypothesis _ shorter (closed.round isEnding findings) _ rfl
            exact ⟨later, remaining, more isEnding rounds, ended⟩

theorem exist_to_end
    {body : List Lexed} {ending : Lexed} (isEnding : ending.kind = .endOfInput)
    (closed : Closed (body ++ [ending])) (findings : Findings) :
    ∃ later, Rounds findings (body ++ [ending]) later [ending] := by
  obtain ⟨later, remaining, rounds, ended⟩ := exist closed findings
  obtain ⟨taken, split, absent⟩ := rounds.takes closed
  cases remaining with
  | nil =>
      rw [List.append_nil] at split
      have member : ending ∈ taken := by
        rw [← split]
        exact List.mem_append_right _ (List.mem_singleton_self _)
      exact absurd isEnding (absent ending member)
  | cons token rest =>
      rw [split] at closed
      have single := closed.right.eq_nil_of_endOfInput (ended token (List.mem_cons_self ..))
      subst single
      have same : [ending] = [token] := (List.append_inj' split rfl).2
      rw [same] at rounds ⊢
      exact ⟨later, rounds⟩

theorem diagnostics_grow
    {findings later : Findings} {tokens remaining : List Lexed}
    (rounds : Rounds findings tokens later remaining) (closed : Closed tokens) :
    findings.diagnostics.length ≤ later.diagnostics.length := by
  induction rounds with
  | none findings tokens => exact Nat.le_refl _
  | @more findings later token rest remaining inside _ inductionHypothesis =>
      have kept := inductionHypothesis (closed.round inside findings)
      rcases round_cases closed.complete inside findings with
        ⟨function, taken, semicolon, after, _, _, _, _, reads⟩ | ⟨taken, _, _, _, grown⟩
      · rw [reads] at kept
        exact kept
      · exact Nat.le_of_lt (Nat.lt_of_lt_of_le grown kept)

/-- Rounds without a diagnostic read a program of the grammar. -/
theorem derives
    {findings later : Findings} {tokens remaining : List Lexed}
    (rounds : Rounds findings tokens later remaining) (closed : Closed tokens)
    (silent : later.diagnostics.length = findings.diagnostics.length) :
    ∃ body, tokens = body ++ remaining ∧ Derives .program (kinds body) := by
  induction rounds with
  | none findings tokens => exact ⟨[], rfl, Derives.noDefinition⟩
  | @more findings later token rest remaining inside others inductionHypothesis =>
      have closedRound := closed.round inside findings
      rcases round_cases closed.complete inside findings with
        ⟨function, taken, semicolon, after, split, isSemicolon, _, derived, reads⟩ |
        ⟨taken, _, _, _, grown⟩
      · rw [reads] at inductionHypothesis closedRound
        obtain ⟨body, splitAfter, derivedAfter⟩ := inductionHypothesis closedRound silent
        change after = body ++ remaining at splitAfter
        refine ⟨taken ++ semicolon :: body, ?_, ?_⟩
        · rw [split, splitAfter, List.append_assoc, List.cons_append]
        · rw [kinds_append, kinds_cons, isSemicolon]
          exact Derives.definitions derived derivedAfter
      · -- A diagnostic is never taken back.
        have kept := diagnostics_grow others closedRound
        omega

/-- A program of the grammar is read without a diagnostic. -/
theorem of_derives
    {word : List Kind} (derived : Derives .program word)
    {body : List Lexed} (same : kinds body = word) (readable : Readable body)
    (remaining : List Lexed) (findings : Findings) :
    ∃ later, Rounds findings (body ++ remaining) later remaining ∧
      later.diagnostics = findings.diagnostics := by
  generalize isProgram : Nonterminal.program = nonterminal at derived
  induction derived generalizing body findings with
  | noDefinition =>
      rw [kinds_eq_nil same]
      exact ⟨findings, none _ _, rfl⟩
  | definitions derivedFirst _ _ inductionHypothesis =>
      obtain ⟨first, others, splitBody, sameFirst, sameOthers⟩ := kinds_eq_append same
      obtain ⟨semicolon, after, splitOthers, isSemicolon, sameAfter⟩ := kinds_eq_cons sameOthers
      subst splitBody splitOthers
      have stops : Stops semicolon.kind := by rw [isSemicolon]; exact ⟨rfl, by decide⟩
      obtain ⟨define, inner, function, splitFirst, isDefine, accepted⟩ :=
        definition_accepted derivedFirst sameFirst readable.left stops (after ++ remaining)
      subst splitFirst
      obtain ⟨later, rounds, silent⟩ := inductionHypothesis sameAfter readable.right.tail
        (findings.define function) isProgram
      refine ⟨later, ?_, silent⟩
      rw [List.append_assoc, List.cons_append, List.cons_append]
      apply more
      · rw [isDefine]
        decide
      · have reads : Descent.round findings
            (define :: (inner ++ semicolon :: (after ++ remaining))) =
              (findings.define function, after ++ remaining) := by
          rw [Descent.round, Descent.item, if_pos isDefine, accepted]
          exact terminator_of_semicolon isSemicolon _ _
        rw [reads]
        exact rounds
  | _ => cases isProgram

end Rounds

/-- Rounds that lead to the end of the input are what the loop does. -/
theorem programWithin_of_rounds
    {findings later : Findings} {tokens rest : List Lexed} {ending : Lexed}
    (rounds : Rounds findings tokens later (ending :: rest)) (isEnding : ending.kind = .endOfInput)
    (closed : Closed tokens) {allowance items : Nat} (enough : allowanceFor tokens ≤ allowance)
    (counted : tokens.length < items) :
    programWithin allowance items findings tokens = (later, .complete) := by
  generalize reached : ending :: rest = remaining at rounds
  induction rounds generalizing items with
  | none findings tokens =>
      cases items with
      | zero => exact absurd counted (Nat.not_lt_zero _)
      | succ items =>
          rw [← reached, programWithin, if_pos isEnding]
  | @more findings later token rest remaining inside _ inductionHypothesis =>
      cases items with
      | zero => exact absurd counted (Nat.not_lt_zero _)
      | succ items =>
          have shorter := round_shorter closed.complete inside findings
          rw [programWithin, if_neg inside, itemWithin_eq closed.complete enough]
          unfold allowanceFor at enough inductionHypothesis
          exact inductionHypothesis (closed.round inside findings) (by omega) (by omega) reached

/-! ### The parser -/

namespace Parser

def findings (parser : Parser) : Findings :=
  { functions := parser.functions.reverse, diagnostics := parser.diagnostics.reverse }

section Read

variable {parser : Parser} {found : Findings} {ending : Ending}
  (read : program parser.findings parser.lexer.listing.tokens = (found, ending))

include read

theorem parse_after :
    parser.parse.parser =
      { lexer := parser.lexer.listing.lexer
        token := (parser.lexer.listing.tokens.getLast?.map Lexed.kind).getD parser.token
        functions := found.functions.reverse
        diagnostics := found.diagnostics.reverse } := by
  unfold findings at read
  unfold parse
  simp only [read]
  split <;> rfl

theorem parse_outcome_of_complete (isComplete : ending = .complete) :
    parser.parse.outcome = .ok () := by
  unfold findings at read
  unfold parse
  simp only [read, isComplete]

theorem parse_outcome_of_interrupted
    {failure : Failure} (isInterrupted : ending = .interrupted)
    (failed : parser.lexer.listing.failure = some failure) :
    parser.parse.outcome = .error failure := by
  unfold findings at read
  unfold parse
  simp only [read, isInterrupted, failed]

end Read

end Parser

theorem parse_of_rounds
    {source : List Source.Chunk} {later : Findings} {rest : List Lexed} {ending : Lexed}
    (closed : Closed (Token.Lexer.ofSource source).listing.tokens)
    (rounds : Rounds {} (Token.Lexer.ofSource source).listing.tokens later (ending :: rest))
    (isEnding : ending.kind = .endOfInput) :
    (Compile.parse source).outcome =
      .ok ⟨later.functions.reverse, later.diagnostics.reverse⟩ := by
  have read : program (Parser.ofSource source []).findings
      (Parser.ofSource source []).lexer.listing.tokens = (later, .complete) :=
    programWithin_of_rounds rounds isEnding closed (Nat.le_refl _) (Nat.lt_succ_self _)
  simp only [Compile.parse, Parser.parse_outcome_of_complete read rfl, Parser.parse_after read]

end ExprWasm.Phrase
