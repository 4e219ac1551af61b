import ExprWasm.Proofs.Phrase.Course

/-! What is not there is reported once.

Wherever a procedure of the parser is called, it returns a node and has noted nothing, or it returns
nothing and has noted one diagnostic. It does not return if the source fails meanwhile. A definition
that is not there adds no function. -/

set_option autoImplicit false

namespace ExprWasm.Phrase

open Source (Chunk)
open Token (Lexed Lexer Listing)
open ExprWasm.Tree (Function)

inductive Answers {α : Type} (listing : Listing) (before : Intake) : Outcome α → Drawn α → Prop where
  | node {value : α} {tokens : List Lexed} {after : Intake} (faces : Faces listing after tokens)
      (keeps : Keeps before after) :
      Answers listing before (.accepted value tokens) (.found value after)
  | nothing {diagnostic : Diagnostic} {tokens : List Lexed} {after : Intake}
      (faces : Faces listing after tokens) (functions : after.functions = before.functions)
      (notes : after.notes = ⟨diagnostic, after.drawn⟩ :: before.notes) :
      Answers listing before (.rejected diagnostic tokens) (.missing after)
  | unreturned {outcome : Outcome α} {failure : Failure} {after : Intake} (short : outcome.Short)
      (failed : listing.failure = some failure) (keeps : Keeps before after) :
      Answers listing before outcome (.stopped failure after)

theorem Matches.answers
    {α : Type} {listing : Listing} {before : Intake} {tokens : List Lexed} {outcome : Outcome α}
    {drawn : Drawn α} (matched : Matches listing before outcome drawn)
    (remains : outcome.Remains tokens) : Answers listing before outcome drawn := by
  cases matched with
  | found faces keeps => exact .node faces keeps
  | missing faces functions notes => exact .nothing faces functions notes
  | stopped short ranOut keeps => exact .unreturned short ranOut.failed keeps
  | failed failure => exact remains.elim

/-- What can be called while `token` is the lookahead and `rest` is still to be drawn, with any
allowance that suffices for that. -/
structure Reports (listing : Listing) (intake : Intake) (token : Lexed) (rest : List Lexed) : Prop where
  definition : token.kind = .define → ∀ allowance, allowanceFor rest ≤ allowance →
    Answers listing intake (definitionWithin allowance rest)
      (intake.draw.andThen fun _ after => after.definition allowance)
  prototype : ∀ allowance, rest.length + 1 ≤ allowance →
    Answers listing intake (prototype (token :: rest)) (intake.prototype allowance)
  conditional : token.kind = .ifWord → ∀ allowance, allowanceFor rest ≤ allowance →
    Answers listing intake (conditionalWithin allowance rest)
      (intake.draw.andThen fun _ after => after.conditional allowance)
  expression : ∀ allowance, 3 * rest.length + 5 ≤ allowance →
    Answers listing intake (expressionWithin allowance (token :: rest)) (intake.expression allowance)
  factor : ∀ allowance, 3 * rest.length + 4 ≤ allowance →
    Answers listing intake (factorWithin allowance (token :: rest)) (intake.factor allowance)
  name : token.kind = .identifier → ∀ allowance, 3 * rest.length + 1 ≤ allowance →
    Answers listing intake (nameWithin allowance token.lexeme rest)
      (intake.draw.andThen fun _ after => after.name allowance intake.lexer.lexeme)
  numeral : token.kind = .number → Answers listing intake (numeral token rest) intake.numeral
  /-- A definition that is there is added to the functions, without a note. -/
  defined : token.kind = .define → ∀ allowance, allowanceFor rest ≤ allowance →
    ∀ function left, definitionWithin allowance rest = .accepted function left →
      ∃ after, intake.item allowance = .found () after ∧
        after.functions = function :: intake.functions ∧ after.notes = intake.notes
  /-- One that is not there leaves the functions as they are, with one note. -/
  undefined : token.kind = .define → ∀ allowance, allowanceFor rest ≤ allowance →
    ∀ diagnostic left, definitionWithin allowance rest = .rejected diagnostic left →
      ∃ after drawn, (intake.item allowance).intake? = some after ∧
        after.functions = intake.functions ∧ after.notes = ⟨diagnostic, drawn⟩ :: intake.notes

theorem Faces.suffix
    {listing : Listing} {intake : Intake} {tokens : List Lexed}
    (faces : Faces listing intake tokens) :
    tokens <:+ listing.tokens := by
  cases faces with
  | @of lexer token before rest functions notes supplies split =>
      refine ⟨before.reverse, ?_⟩
      rw [split, List.reverse_cons, List.append_assoc, List.singleton_append]

section Point

variable {listing : Listing} {intake : Intake} {token : Lexed} {rest : List Lexed} {allowance : Nat}
  (faces : Faces listing intake (token :: rest))

include faces

theorem drawn_name_matches
    (isName : token.kind = .identifier) (enough : 3 * rest.length + 1 ≤ allowance) :
    Matches listing intake (nameWithin allowance token.lexeme rest)
      (intake.draw.andThen fun _ after => after.name allowance intake.lexer.lexeme) := by
  rw [faces.token_eq.2.1]
  apply draw_andThen faces (by rw [isName]; decide)
  · rintro rfl
    change (Call.within allowance (.name token.lexeme) []).Short
    rw [Call.within_nil]
    exact .interrupted
  · intro after facesAfter
    exact @Call.within_matches _ allowance (.name token.lexeme) _ rest ⟨trivial, enough⟩ facesAfter

theorem item_of_accepted
    (isDefine : token.kind = .define) (enough : allowanceFor rest ≤ allowance)
    {function : Function} {left : List Lexed}
    (accepted : definitionWithin allowance rest = .accepted function left) :
    ∃ after, intake.item allowance = .found () after ∧
      after.functions = function :: intake.functions ∧ after.notes = intake.notes := by
  have matched := drawn_definition_matches faces isDefine enough
  rw [Intake.item, faces.token_eq.1, if_pos isDefine]
  rw [accepted] at matched
  generalize intake.draw.andThen _ = drawn at matched
  cases matched with
  | found _ keeps => exact ⟨_, rfl, by rw [keeps.functions], keeps.notes⟩
  | stopped short =>
      -- What is accepted leaves a token, so nothing has run out.
      cases short with
      | accepted => exact absurd rfl (definitionWithin_followed accepted)

theorem item_of_rejected
    (readable : Readable rest) (isDefine : token.kind = .define)
    (enough : allowanceFor rest ≤ allowance) {diagnostic : Diagnostic} {left : List Lexed}
    (rejected : definitionWithin allowance rest = .rejected diagnostic left) :
    ∃ after drawn, (intake.item allowance).intake? = some after ∧
      after.functions = intake.functions ∧ after.notes = ⟨diagnostic, drawn⟩ :: intake.notes := by
  have matched := drawn_definition_matches faces isDefine enough
  have remains := definitionWithin_remains readable allowance
  rw [rejected] at matched remains
  have fewer : left.length ≤ allowance := by
    have within := remains.length_le
    unfold allowanceFor at enough
    omega
  rw [Intake.item, faces.token_eq.1, if_pos isDefine]
  generalize intake.draw.andThen _ = drawn at matched
  cases matched with
  | @missing _ _ noted facesNoted functions notes =>
      -- The tokens up to the next boundary are drawn without a further note.
      have skipped := skip_matches facesNoted 0 fewer
      simp only
      generalize noted.skip allowance = result at skipped
      cases skipped with
      | found _ keeps =>
          exact ⟨_, noted.drawn, rfl, keeps.functions.trans functions, keeps.notes.trans notes⟩
      | stopped _ _ keeps =>
          exact ⟨_, noted.drawn, rfl, keeps.functions.trans functions, keeps.notes.trans notes⟩
  | stopped short => cases short

theorem Faces.reports (readable : Readable (token :: rest)) :
    Reports listing intake token rest := by
  constructor
  case definition =>
    intro isDefine allowance enough
    exact (drawn_definition_matches faces isDefine enough).answers
      (definitionWithin_remains readable.tail allowance)
  case prototype =>
    intro allowance enough
    exact (prototype_matches faces enough).answers (prototype_remains (token :: rest))
  case conditional =>
    intro isIf allowance enough
    exact (drawn_conditional_matches faces isIf enough).answers
      (conditionalWithin_remains readable.tail allowance)
  case expression =>
    intro allowance enough
    have matched := @Call.within_matches _ allowance .expression _ (token :: rest) ⟨trivial, enough⟩ faces
    exact matched.answers (expressionWithin_remains readable allowance)
  case factor =>
    intro allowance enough
    have matched := @Call.within_matches _ allowance .factor _ (token :: rest) ⟨trivial, enough⟩ faces
    exact matched.answers (@Call.within_remains .factor _ trivial readable allowance)
  case name =>
    intro isName allowance enough
    exact (drawn_name_matches faces isName enough).answers
      (@Call.within_remains (.name token.lexeme) _ trivial readable.tail allowance)
  case numeral =>
    intro isNumber
    exact (numeral_matches faces isNumber).answers (numeral_remains readable isNumber)
  case defined =>
    intro isDefine allowance enough function left accepted
    exact item_of_accepted faces isDefine enough accepted
  case undefined =>
    intro isDefine allowance enough diagnostic left rejected
    exact item_of_rejected faces readable.tail isDefine enough rejected

end Point

/-- The first token that is drawn from a source is the first of its list. -/
theorem faces_first
    {lexer : Lexer} {first : Intake} (drawn : Intake.draw { lexer := lexer } = .found () first) :
    ∃ token rest, Faces lexer.listing first (token :: rest) := by
  have supplies := @Lexer.listing_supplies lexer .noToken (by decide)
  unfold Intake.draw at drawn
  generalize listed : lexer.listing.tokens = tokens at supplies
  cases supplies with
  | fails _ fails =>
      rw [fails] at drawn
      cases drawn
  | more _ reads later =>
      rw [reads] at drawn
      cases drawn
      exact ⟨_, _, .of later listed⟩

/-- Wherever the parser of a source has come to, what it calls next reports what is not there with
one diagnostic, and nothing otherwise. So the diagnostics of a whole run are those that were there
before it, and after them those it has noted. -/
theorem missing_reported_once (source : List Chunk) :
    (∀ first, Intake.draw { lexer := Lexer.ofSource source } = .found () first →
      ∃ token rest, Faces (Lexer.ofSource source).listing first (token :: rest)) ∧
    (∀ intake token rest, Faces (Lexer.ofSource source).listing intake (token :: rest) →
      Reports (Lexer.ofSource source).listing intake token rest) ∧
    ∀ earlier, ∃ final,
      (Parser.ofSource source earlier).parseOnDemand.intake? = some final ∧
      (Parser.ofSource source earlier).parse.parser.functions = final.functions.reverse ∧
      (Parser.ofSource source earlier).parse.parser.diagnostics =
        earlier ++ (final.notes.map Note.diagnostic).reverse := by
  refine ⟨fun first => faces_first, ?_, ?_⟩
  · intro intake token rest faces
    have supplies := @Lexer.listing_supplies (Lexer.ofSource source) .noToken (by decide)
    exact faces.reports (supplies.readable.of_suffix faces.suffix)
  · intro earlier
    obtain ⟨final, drawn, settles⟩ := (Parser.ofSource source earlier).parseOnDemand_agrees.settled
    refine ⟨final, drawn, ?_, ?_⟩
    · rw [settles.after]
      rfl
    · rw [settles.after]
      rfl

/-- The source `def;`. -/
def namelessDefinition : List Chunk := [.bytes [0x64, 0x65, 0x66, 0x3B]]

theorem namelessDefinition_reported_once :
    ∃ (first : Intake) (token : Lexed) (rest : List Lexed),
      Intake.draw { lexer := Lexer.ofSource namelessDefinition } = .found () first ∧
      token.kind = .define ∧
      Answers (Lexer.ofSource namelessDefinition).listing first
        (definitionWithin (allowanceFor rest) rest)
        (first.draw.andThen fun _ after => after.definition (allowanceFor rest)) := by
  obtain ⟨starts, reports, _⟩ := missing_reported_once namelessDefinition
  have drawn : Intake.draw { lexer := Lexer.ofSource namelessDefinition } =
      .found () ⟨⟨⟨[], none⟩, "def", .item ';', 1⟩, .define, [⟨.define, "def", 1⟩], [], []⟩ := rfl
  obtain ⟨token, rest, faces⟩ := starts _ drawn
  have isDefine : token.kind = .define := faces.token_eq.1.symm
  exact ⟨_, token, rest, drawn, isDefine,
    (reports _ _ _ faces).definition isDefine _ (Nat.le_refl _)⟩

end ExprWasm.Phrase
