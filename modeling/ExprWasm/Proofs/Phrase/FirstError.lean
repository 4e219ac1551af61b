import ExprWasm.Proofs.Phrase.Lookahead
import ExprWasm.Proofs.Phrase.Recognition

/-! The first error of a program.

Up to the first error every definition has its semicolon. The error is noticed at the earliest token
at which it can be: the tokens before it begin some program, and together with it they begin none.
Both parts rest on the one token of lookahead. What follows the erroneous token can be exchanged,
for the end of the input in the first part and in the second for what a program would go on with. -/

set_option autoImplicit false

namespace ExprWasm.Phrase

open Token (Kind Lexed)
open ExprWasm.Tree (Function)

inductive Silent : List Lexed → List Lexed → Prop where
  | none (tokens : List Lexed) : Silent tokens tokens
  | more {define semicolon : Lexed} {rest after tokens : List Lexed} {function : Function}
      (isDefine : define.kind = .define)
      (accepts : Descent.definition rest = .accepted function (semicolon :: after))
      (isSemicolon : semicolon.kind = .semicolon) (later : Silent after tokens) :
      Silent (define :: rest) tokens

/-- At the beginning of the tokens stands no definition with its semicolon; the complaint about it
is made where `ahead` begins. -/
inductive Complains : List Lexed → Diagnostic → List Lexed → Prop where
  | undefined {token : Lexed} {rest : List Lexed} (inside : token.kind ≠ .endOfInput)
      (noDefine : token.kind ≠ .define) :
      Complains (token :: rest) (Complaint.definitionExpected.about token) (token :: rest)
  | rejected {define : Lexed} {rest ahead : List Lexed} {diagnostic : Diagnostic}
      (isDefine : define.kind = .define)
      (rejects : Descent.definition rest = .rejected diagnostic ahead) :
      Complains (define :: rest) diagnostic ahead
  | unterminated {define next : Lexed} {rest after : List Lexed} {function : Function}
      (isDefine : define.kind = .define)
      (accepts : Descent.definition rest = .accepted function (next :: after))
      (noSemicolon : next.kind ≠ .semicolon) :
      Complains (define :: rest) (Complaint.semicolonMissing.about next) (next :: after)

/-- The tokens that a definition has taken. -/
theorem definition_split
    {tokens rest : List Lexed} (readable : Readable tokens) {function : Function}
    (accepts : Descent.definition tokens = .accepted function rest) :
    ∃ taken, tokens = taken ++ rest := by
  have remains := definition_remains readable
  rw [accepts] at remains
  obtain ⟨taken, split⟩ := remains
  exact ⟨taken, split.symm⟩

theorem Silent.trans
    {first second third : List Lexed} (before : Silent first second) (after : Silent second third) :
    Silent first third := by
  induction before with
  | none tokens => exact after
  | more isDefine accepts isSemicolon _ inductionHypothesis =>
      exact more isDefine accepts isSemicolon (inductionHypothesis after)

theorem Readable.exchange
    {before after beyond : List Lexed} {next : Lexed}
    (readable : Readable (before ++ next :: after)) (other : Readable beyond) :
    Readable (before ++ next :: beyond) := by
  intro token member isNumber
  rcases List.mem_append.mp member with inBefore | inRest
  · exact readable.left token inBefore isNumber
  · rcases List.mem_cons.mp inRest with rfl | inBeyond
    · exact readable.right token List.mem_cons_self isNumber
    · exact other token inBeyond isNumber

/-! ### The tokens before the error begin a program -/

section Viable

variable {seen after : List Lexed} {next : Lexed} (readable : Readable (seen ++ next :: after))

include readable

theorem complete_ended (line : Int) : Complete (seen ++ [next, ⟨.endOfInput, "", line⟩]) := by
  refine ⟨⟨⟨.endOfInput, "", line⟩, by simp, rfl⟩, readable.exchange ?_⟩
  intro token member isNumber
  rw [List.mem_singleton.mp member] at isNumber
  cases isNumber

/-- What precedes the token that a definition is rejected at can be completed to one. -/
theorem definition_completed
    {diagnostic : Diagnostic}
    (rejects : Descent.definition (seen ++ next :: after) = .rejected diagnostic (next :: after)) :
    ∃ missing, Derives .definition (.define :: (kinds seen ++ missing)) := by
  have decided := Descent.definition_decided (complete_ended readable 0)
  rw [definition_rejected_next readable _ rejects] at decided
  obtain ⟨taken, missing, splits, derived⟩ := decided
  rw [List.append_cancel_right splits.split]
  exact ⟨missing, derived⟩

theorem definition_derived
    {function : Function}
    (accepts : Descent.definition (seen ++ next :: after) = .accepted function (next :: after)) :
    Derives .definition (.define :: kinds seen) := by
  have decided := Descent.definition_decided (complete_ended readable 0)
  rw [definition_accepted_next readable _ accepts] at decided
  obtain ⟨taken, splits, derived⟩ := decided
  rw [List.append_cancel_right splits.split]
  exact derived

end Viable

/-- What was read silently can stand before any program, and whatever follows, it is read silently.
-/
theorem Silent.derives
    {tokens rest : List Lexed} (silent : Silent tokens rest) (readable : Readable tokens) :
    ∃ seen, tokens = seen ++ rest ∧ (∀ others, Silent (seen ++ others) others) ∧
      ∀ word, Derives .program word → Derives .program (kinds seen ++ word) := by
  induction silent with
  | none tokens => exact ⟨[], rfl, Silent.none, fun _ derived => derived⟩
  | @more define semicolon rest after tokens function isDefine accepts isSemicolon _
      inductionHypothesis =>
      obtain ⟨inner, rfl⟩ := definition_split readable.tail accepts
      obtain ⟨seen, rfl, readAlike, goesOn⟩ := inductionHypothesis readable.tail.right.tail
      have derived := definition_derived readable.tail accepts
      refine ⟨define :: (inner ++ semicolon :: seen), by simp, ?_, ?_⟩
      · intro others
        have acceptsAlike := definition_accepted_next readable.tail (seen ++ others) accepts
        simpa using Silent.more isDefine acceptsAlike isSemicolon (readAlike others)
      · intro word isProgram
        have whole := Derives.definitions derived (goesOn word isProgram)
        simpa [isDefine, isSemicolon] using whole

/-- What precedes a complaint can be completed to a program, and the complaint is made whatever
follows its token. -/
theorem Complains.viable
    {tokens after : List Lexed} {next : Lexed} {diagnostic : Diagnostic}
    (complains : Complains tokens diagnostic (next :: after)) (readable : Readable tokens) :
    ∃ seen word, tokens = seen ++ next :: after ∧ Derives .program (kinds seen ++ word) ∧
      ∀ beyond, Complains (seen ++ next :: beyond) diagnostic (next :: beyond) := by
  generalize faced : next :: after = ahead at complains
  cases complains with
  | undefined inside noDefine =>
      cases faced
      exact ⟨[], [], rfl, Derives.noDefinition, fun _ => Complains.undefined inside noDefine⟩
  | @rejected define rest ahead diagnostic isDefine rejects =>
      subst faced
      have remains := definition_remains readable.tail
      rw [rejects] at remains
      obtain ⟨seen, rfl⟩ := remains
      obtain ⟨missing, derived⟩ := definition_completed readable.tail rejects
      refine ⟨define :: seen, missing ++ [.semicolon], rfl, ?_, ?_⟩
      · have whole := Derives.definitions derived Derives.noDefinition
        simpa [isDefine] using whole
      · intro beyond
        exact Complains.rejected isDefine (definition_rejected_next readable.tail beyond rejects)
  | @unterminated define _ rest _ function isDefine accepts noSemicolon =>
      cases faced
      obtain ⟨seen, rfl⟩ := definition_split readable.tail accepts
      refine ⟨define :: seen, [.semicolon], rfl, ?_, ?_⟩
      · have whole := Derives.definitions (definition_derived readable.tail accepts)
          Derives.noDefinition
        simpa [isDefine] using whole
      · intro beyond
        exact Complains.unterminated isDefine
          (definition_accepted_next readable.tail beyond accepts) noSemicolon

/-! ### With the erroneous token they begin none -/

/-- How a program begins: with nothing, or with a definition that is accepted up to its semicolon
whatever follows. -/
theorem program_cases
    {body : List Lexed} (derived : Derives .program (kinds body)) (readable : Readable body)
    (remaining : List Lexed) :
    body = [] ∨
      ∃ define inner semicolon rest function, body = define :: (inner ++ semicolon :: rest) ∧
        define.kind = .define ∧ semicolon.kind = .semicolon ∧
        Descent.definition (inner ++ semicolon :: (rest ++ remaining)) =
          .accepted function (semicolon :: (rest ++ remaining)) ∧
        Derives .program (kinds rest) := by
  generalize same : kinds body = word at derived
  cases derived with
  | noDefinition => exact Or.inl (kinds_eq_nil same)
  | definitions derivedFirst derivedRest =>
      obtain ⟨first, others, rfl, sameFirst, sameOthers⟩ := kinds_eq_append same
      obtain ⟨semicolon, rest, rfl, isSemicolon, rfl⟩ := kinds_eq_cons sameOthers
      have stops : Stops semicolon.kind := by
        rw [isSemicolon]
        exact ⟨rfl, by decide⟩
      obtain ⟨define, inner, function, rfl, isDefine, accepts⟩ :=
        definition_accepted derivedFirst sameFirst readable.left stops (rest ++ remaining)
      exact Or.inr ⟨define, inner, semicolon, rest, function, by simp, isDefine, isSemicolon,
        accepts, derivedRest⟩

def Ended (remaining : List Lexed) : Prop :=
  ∀ token ∈ remaining.head?, token.kind = .endOfInput

theorem ended_nil : Ended [] := by
  intro token member
  cases member

section Program

variable {body remaining : List Lexed} (ended : Ended remaining)

include ended

theorem Complains.not_derives
    {diagnostic : Diagnostic} {ahead : List Lexed}
    (complains : Complains (body ++ remaining) diagnostic ahead) (readable : Readable body) :
    ¬ Derives .program (kinds body) := by
  intro derived
  rcases program_cases derived readable remaining with
    rfl | ⟨define, inner, semicolon, rest, function, rfl, isDefine, isSemicolon, accepts, _⟩
  · rw [List.nil_append] at complains
    cases complains with
    | undefined inside => exact inside (ended _ rfl)
    | rejected isDefine =>
        rw [ended _ rfl] at isDefine
        cases isDefine
    | unterminated isDefine =>
        rw [ended _ rfl] at isDefine
        cases isDefine
  · rw [List.cons_append, List.append_assoc, List.cons_append] at complains
    cases complains with
    | undefined _ noDefine => exact noDefine isDefine
    | rejected _ rejects =>
        rw [accepts] at rejects
        cases rejects
    | unterminated _ acceptsOther noSemicolon =>
        rw [accepts] at acceptsOther
        cases acceptsOther
        exact noSemicolon isSemicolon

/-- What is read silently of a program leaves a program. -/
theorem Silent.derives_rest
    {tokens : List Lexed} (silent : Silent (body ++ remaining) tokens) (readable : Readable body)
    (derived : Derives .program (kinds body)) :
    ∃ left, tokens = left ++ remaining ∧ Readable left ∧ Derives .program (kinds left) := by
  generalize whole : body ++ remaining = start at silent
  induction silent generalizing body with
  | none tokens => exact ⟨body, whole.symm, readable, derived⟩
  | @more first stop inside after tokens found isFirst acceptsFirst _ _ inductionHypothesis =>
      rcases program_cases derived readable remaining with
        rfl | ⟨define, inner, semicolon, rest, function, rfl, isDefine, _, accepts, derivedRest⟩
      · -- What remains after a program does not begin with a definition.
        rw [List.nil_append] at whole
        rw [whole] at ended
        rw [ended _ rfl] at isFirst
        cases isFirst
      · rw [List.cons_append, List.append_assoc, List.cons_append] at whole
        obtain ⟨rfl, rfl⟩ := List.cons.inj whole
        rw [accepts] at acceptsFirst
        cases acceptsFirst
        exact inductionHypothesis readable.tail.right.tail derivedRest rfl

/-- A program has no first error. -/
theorem Silent.not_derives
    {tokens ahead : List Lexed} {diagnostic : Diagnostic}
    (silent : Silent (body ++ remaining) tokens)
    (complains : Complains tokens diagnostic ahead) (readable : Readable body) :
    ¬ Derives .program (kinds body) := by
  intro derived
  obtain ⟨left, rfl, readableLeft, derivedLeft⟩ := silent.derives_rest ended readable derived
  exact complains.not_derives ended readableLeft derivedLeft

end Program

def spelled (word : List Kind) : List Lexed :=
  word.map fun kind => ⟨kind, "0", 0⟩

theorem kinds_spelled (word : List Kind) : kinds (spelled word) = word := by
  unfold kinds spelled
  rw [List.map_map]
  exact List.map_id word

theorem readable_spelled (word : List Kind) : Readable (spelled word) := by
  intro token member _
  obtain ⟨kind, _, rfl⟩ := List.mem_map.mp member
  change (Number.Decimal.read? "0".toList).isSome = true
  decide +kernel

/-- The first error is noticed at the earliest token: those before it begin a program, with it they
do not, and at the end of the input they are not one. -/
theorem first_error_earliest
    {start tokens after : List Lexed} {next : Lexed} {diagnostic : Diagnostic}
    (readable : Readable start) (silent : Silent start tokens)
    (complains : Complains tokens diagnostic (next :: after)) :
    ∃ before, start = before ++ next :: after ∧
      (∃ word, Derives .program (kinds before ++ word)) ∧
      (∀ word, ¬ Derives .program (kinds before ++ next.kind :: word)) ∧
      (next.kind = .endOfInput → ¬ Derives .program (kinds before)) := by
  obtain ⟨seen, rfl, readAlike, goesOn⟩ := silent.derives readable
  obtain ⟨taken, missing, rfl, completed, complainsAlike⟩ := complains.viable readable.right
  rw [← List.append_assoc] at silent readable
  refine ⟨seen ++ taken, by rw [List.append_assoc], ⟨missing, ?_⟩, ?_, ?_⟩
  · rw [kinds_append, List.append_assoc]
    exact goesOn _ completed
  · intro word derived
    -- The same tokens, with what a program would go on with spelled out behind them.
    have silentAlike := readAlike (taken ++ next :: spelled word)
    have readableAlike := readable.exchange (readable_spelled word)
    rw [← List.append_assoc, ← List.append_nil (seen ++ taken ++ next :: spelled word)]
      at silentAlike
    apply silentAlike.not_derives ended_nil (complainsAlike (spelled word)) readableAlike
    rw [kinds_append, kinds_cons, kinds_spelled]
    exact derived
  · intro isEnding
    apply silent.not_derives _ complains readable.left
    intro token member
    cases member
    exact isEnding

end ExprWasm.Phrase
