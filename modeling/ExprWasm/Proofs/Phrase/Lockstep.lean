import ExprWasm.Proofs.Phrase.Demand
import ExprWasm.Proofs.Phrase.Lookahead
import ExprWasm.Proofs.Token.Supply

/-! Reading on demand keeps step with reading a list.

A parser faces a list of tokens if its lookahead is the first of them and its lexer supplies the
others. Where the list is accepted or rejected, the parser draws up to the first token that is left,
and where the list is too short, it runs into the failure that the listing ended with. -/

set_option autoImplicit false

namespace ExprWasm.Phrase

open Token (Kind Lexed Lexer Listing)
open ExprWasm.Tree (Node Operator Prototype Function)

inductive Faces (listing : Listing) : Intake → List Lexed → Prop where
  | of {lexer : Lexer} {token : Kind} {before rest : List Lexed} {functions : List Function}
      {notes : List Note}
      (supplies : Lexer.Supplies listing.failure listing.lexer token lexer rest)
      (split : listing.tokens = (lexer.lexed token :: before).reverse ++ rest) :
      Faces listing ⟨lexer, token, lexer.lexed token :: before, functions, notes⟩
        (lexer.lexed token :: rest)

structure Drained (listing : Listing) (intake : Intake) : Prop where
  lexer : intake.lexer = listing.lexer
  drawn : intake.drawn.reverse = listing.tokens
  token : listing.tokens.getLast?.map Lexed.kind = some intake.token

structure RanOut (listing : Listing) (failure : Failure) (intake : Intake) : Prop
    extends Drained listing intake where
  failed : listing.failure = some failure

structure Keeps (before after : Intake) : Prop where
  functions : after.functions = before.functions
  notes : after.notes = before.notes

theorem Keeps.refl (intake : Intake) : Keeps intake intake := ⟨rfl, rfl⟩

theorem Keeps.trans {first second third : Intake} (before : Keeps first second)
    (after : Keeps second third) : Keeps first third :=
  ⟨after.functions.trans before.functions, after.notes.trans before.notes⟩

inductive Outcome.Short {α : Type} : Outcome α → Prop where
  | interrupted : Short .interrupted
  | accepted (value : α) : Short (.accepted value [])

/-- What a list of tokens comes to is what a parser that faces it comes to. -/
inductive Matches {α : Type} (listing : Listing) (before : Intake) : Outcome α → Drawn α → Prop where
  | found {value : α} {tokens : List Lexed} {intake : Intake} (faces : Faces listing intake tokens)
      (keeps : Keeps before intake) :
      Matches listing before (.accepted value tokens) (.found value intake)
  | missing {diagnostic : Diagnostic} {tokens : List Lexed} {intake : Intake}
      (faces : Faces listing intake tokens) (functions : intake.functions = before.functions)
      (notes : intake.notes = ⟨diagnostic, intake.drawn⟩ :: before.notes) :
      Matches listing before (.rejected diagnostic tokens) (.missing intake)
  | stopped {outcome : Outcome α} {failure : Failure} {intake : Intake} (short : outcome.Short)
      (ranOut : RanOut listing failure intake) (keeps : Keeps before intake) :
      Matches listing before outcome (.stopped failure intake)
  | failed (failure : Failure) (intake : Intake) :
      Matches listing before (.failed failure) (.stopped failure intake)

variable {listing : Listing}

namespace Matches

variable {α β : Type} {before intake : Intake} {outcome : Outcome α} {drawn : Drawn α}

theorem weaken (matched : Matches listing intake outcome drawn) (keeps : Keeps before intake) :
    Matches listing before outcome drawn := by
  cases matched with
  | found faces keepsFurther => exact found faces (keeps.trans keepsFurther)
  | missing faces functions notes =>
      exact missing faces (functions.trans keeps.functions) (by rw [notes, keeps.notes])
  | stopped short ranOut keepsFurther => exact stopped short ranOut (keeps.trans keepsFurther)
  | failed failure intake => exact failed failure intake

theorem andThen
    {continuation : α → List Lexed → Outcome β} {continuation' : α → Intake → Drawn β}
    (matched : Matches listing before outcome drawn)
    (short : ∀ value, outcome = .accepted value [] → (continuation value []).Short)
    (later : ∀ value tokens intake, outcome = .accepted value tokens →
      Faces listing intake tokens →
      Matches listing intake (continuation value tokens) (continuation' value intake)) :
    Matches listing before (outcome.andThen continuation) (drawn.andThen continuation') := by
  cases matched with
  | found faces keeps => exact (later _ _ _ rfl faces).weaken keeps
  | missing faces functions notes => exact missing faces functions notes
  | stopped isShort ranOut keeps =>
      refine stopped ?_ ranOut keeps
      cases isShort with
      | interrupted => exact Outcome.Short.interrupted
      | accepted value => exact short value rfl
  | failed failure intake => exact failed failure intake

end Matches

/-- Drawing a token that is not the last takes it off the list. -/
theorem draw_matches
    {intake : Intake} {token : Lexed} {rest : List Lexed}
    (faces : Faces listing intake (token :: rest)) (inside : token.kind ≠ .endOfInput) :
    Matches listing intake (.accepted () rest) intake.draw := by
  cases faces with
  | @of lexer kind before _ functions notes supplies split =>
      cases supplies with
      | ended => exact absurd rfl inside
      | fails _ read incomplete =>
          -- The list has ended because this call fails.
          rw [Intake.draw, read]
          rw [List.append_nil] at split
          refine .stopped (.accepted ()) ⟨⟨rfl, split.symm, ?_⟩, incomplete⟩ ⟨rfl, rfl⟩
          rw [split, List.getLast?_reverse]
          rfl
      | @more _ next _ after later _ read supplies =>
          rw [Intake.draw, read]
          refine .found (.of supplies ?_) ⟨rfl, rfl⟩
          rw [split]
          simp

/-- What is done after a token was drawn. -/
theorem draw_andThen
    {α : Type} {intake : Intake} {token : Lexed} {rest : List Lexed} {outcome : Outcome α}
    {continuation : Unit → Intake → Drawn α} (faces : Faces listing intake (token :: rest))
    (inside : token.kind ≠ .endOfInput) (short : rest = [] → outcome.Short)
    (later : ∀ after, Faces listing after rest →
      Matches listing after outcome (continuation () after)) :
    Matches listing intake outcome (intake.draw.andThen continuation) := by
  have drawn := draw_matches faces inside
  generalize intake.draw = result at drawn ⊢
  cases drawn with
  | found facesAfter keeps => exact (later _ facesAfter).weaken keeps
  | stopped isShort ranOut keeps =>
      cases isShort with
      | accepted => exact .stopped (short rfl) ranOut keeps

theorem Faces.token_eq
    {intake : Intake} {token : Lexed} {rest : List Lexed}
    (faces : Faces listing intake (token :: rest)) :
    intake.token = token.kind ∧ intake.lexer.lexeme = token.lexeme ∧ intake.lookahead = token := by
  cases faces with
  | of supplies split => exact ⟨rfl, rfl, rfl⟩

theorem Faces.exists_cons
    {intake : Intake} {tokens : List Lexed} (faces : Faces listing intake tokens) :
    ∃ token rest, tokens = token :: rest := by
  cases faces with
  | of supplies split => exact ⟨_, _, rfl⟩

theorem Faces.note
    {intake : Intake} {tokens : List Lexed} (faces : Faces listing intake tokens)
    (complaint : Complaint) : Faces listing (intake.note complaint) tokens := by
  cases faces with
  | of supplies split => exact .of supplies split

/-- A complaint about the lookahead. -/
theorem missing_matches
    {α : Type} {intake : Intake} {token : Lexed} {rest : List Lexed}
    (faces : Faces listing intake (token :: rest)) (complaint : Complaint) :
    Matches listing intake (.rejected (complaint.about token) (token :: rest) : Outcome α)
      (.missing (intake.note complaint)) := by
  refine .missing (faces.note complaint) rfl ?_
  rw [← faces.token_eq.2.2]
  rfl

theorem demand_matches
    {intake : Intake} {tokens : List Lexed} (faces : Faces listing intake tokens) {kind : Kind}
    (inside : kind ≠ .endOfInput) (complaint : Complaint) :
    Matches listing intake (expect kind complaint tokens) (intake.demand kind complaint) := by
  obtain ⟨token, rest, rfl⟩ := faces.exists_cons
  obtain ⟨sameKind, _, sameToken⟩ := faces.token_eq
  rw [expect, Intake.demand, sameKind, sameToken]
  by_cases fits : token.kind = kind
  · rw [if_pos fits, if_pos fits]
    apply draw_andThen faces (by rw [fits]; exact inside)
    · rintro rfl
      exact .accepted token
    · intro after facesAfter
      exact .found facesAfter (Keeps.refl after)
  · rw [if_neg fits, if_neg fits]
    exact missing_matches faces complaint

/-! ### Expressions -/

namespace Plan

/-- A plan that takes a token only if it is seen not to be the last. -/
def Heeds (inside : Prop) : Plan → Prop
  | accept _ => True
  | reject _ => True
  | fail _ => True
  | look next => ∀ kind lexeme, (next kind lexeme).Heeds (kind ≠ .endOfInput)
  | take next => inside ∧ next.Heeds False
  | call _ next => ∀ node, (next node).Heeds False

theorem heeds_expect
    {kind : Kind} (isInside : kind ≠ .endOfInput) {next : Plan} (heeds : next.Heeds False)
    (complaint : Complaint) (inside : Prop) : (expect kind complaint next).Heeds inside := by
  intro found _
  simp only
  split
  · rename_i fits
    exact ⟨fits ▸ isInside, heeds⟩
  · trivial

theorem conditional_heeds : conditional.Heeds False := by
  intro condition
  apply heeds_expect (by rintro ⟨⟩)
  intro whenTrue
  apply heeds_expect (by rintro ⟨⟩)
  exact fun whenFalse => trivial

theorem body_heeds : body.Heeds False := by
  intro kind _
  simp only
  split
  · rename_i opens
    subst opens
    exact ⟨by rintro ⟨⟩, conditional_heeds⟩
  · exact fun _ => trivial

end Plan

theorem Call.plan_heeds (call : Call) : call.plan.Heeds False := by
  cases call with
  | expression => exact fun _ _ => trivial
  | chain operands waiting =>
      intro kind _
      simp only
      split
      · trivial
      · split
        · split <;> trivial
        · rename_i binds
          split
          · trivial
          · -- The end of the input binds nothing, so there is a token to draw after this one.
            refine ⟨?_, fun _ _ => trivial⟩
            rintro rfl
            exact binds rfl
  | factor =>
      intro kind _
      simp only
      split
      · exact ⟨by rintro ⟨⟩, fun _ => trivial⟩
      · split
        · exact ⟨by rintro ⟨⟩, trivial⟩
        · trivial
      · exact ⟨by rintro ⟨⟩, fun _ => trivial⟩
      · refine ⟨by rintro ⟨⟩, fun _ => ?_⟩
        apply Plan.heeds_expect (by rintro ⟨⟩)
        trivial
      · trivial
  | name callee =>
      intro kind _
      simp only
      split
      · rename_i opens
        subst opens
        refine ⟨by rintro ⟨⟩, fun kind _ => ?_⟩
        simp only
        split
        · rename_i closes
          subst closes
          exact ⟨by rintro ⟨⟩, trivial⟩
        · exact fun _ => trivial
      · trivial
  | arguments callee found =>
      intro argument kind _
      simp only
      split
      · rename_i closes
        subst closes
        exact ⟨by rintro ⟨⟩, trivial⟩
      · split
        · rename_i goesOn
          subst goesOn
          exact ⟨by rintro ⟨⟩, fun _ => trivial⟩
        · trivial

theorem Plan.run_nil
    {calls : Call → List Lexed → Outcome Node} (silent : ∀ call, calls call [] = .interrupted)
    (plan : Plan) : (plan.run calls []).Short := by
  cases plan with
  | accept node => exact .accepted node
  | reject complaint => exact .interrupted
  | fail failure => exact .interrupted
  | look next => exact .interrupted
  | take next => exact .interrupted
  | call first next =>
      rw [run, silent, Outcome.andThen_interrupted]
      exact .interrupted

theorem Call.within_nil (allowance : Nat) (call : Call) :
    call.within allowance [] = .interrupted := by
  induction allowance generalizing call with
  | zero => exact call.within_zero []
  | succ allowance inductionHypothesis =>
      rw [within_succ]
      cases call with
      | expression => rw [plan, Plan.run, inductionHypothesis, Outcome.andThen_interrupted]
      | chain operands waiting => rfl
      | factor => rfl
      | name callee => rfl
      | arguments callee found => rw [plan, Plan.run, inductionHypothesis, Outcome.andThen_interrupted]

theorem Plan.run_matches
    {calls : Call → List Lexed → Outcome Node} {draws : Call → Intake → Drawn Node}
    {allowed : Call → Nat → Prop} (silent : ∀ call, calls call [] = .interrupted)
    (advance : ∀ call tokens, (calls call tokens).Advances (call.takes = true) tokens)
    (matched : ∀ call intake tokens, allowed call tokens.length → Faces listing intake tokens →
      Matches listing intake (calls call tokens) (draws call intake))
    {plan : Plan} {inside : Prop} (heeds : plan.Heeds inside) {intake : Intake}
    {tokens : List Lexed}
    (faces : Faces listing intake tokens)
    (seen : inside → ∀ token ∈ tokens.head?, token.kind ≠ .endOfInput)
    (allows : plan.Calls allowed tokens.length) :
    Matches listing intake (plan.run calls tokens) (plan.draw draws intake) := by
  induction plan generalizing inside intake tokens with
  | accept node => exact .found faces (Keeps.refl intake)
  | reject complaint =>
      obtain ⟨token, rest, rfl⟩ := faces.exists_cons
      exact missing_matches faces complaint
  | fail failure =>
      obtain ⟨token, rest, rfl⟩ := faces.exists_cons
      exact .failed failure intake
  | look next inductionHypothesis =>
      obtain ⟨token, rest, rfl⟩ := faces.exists_cons
      obtain ⟨sameKind, sameLexeme, _⟩ := faces.token_eq
      rw [run, draw, sameKind, sameLexeme]
      refine inductionHypothesis _ _ (heeds token.kind token.lexeme) faces ?_ (allows _ _)
      intro isInside first isFirst
      cases isFirst
      exact isInside
  | take next inductionHypothesis =>
      obtain ⟨token, rest, rfl⟩ := faces.exists_cons
      apply draw_andThen faces (seen heeds.1 token rfl)
      · rintro rfl
        exact run_nil silent next
      · intro after facesAfter
        exact inductionHypothesis heeds.2 facesAfter False.elim (allows _ (Nat.lt_succ_self _))
  | call first next inductionHypothesis =>
      apply (matched first intake tokens allows.1 faces).andThen
      · intro node _
        exact run_nil silent (next node)
      · intro node rest after accepted facesAfter
        obtain ⟨suffix, leaves⟩ := (advance first tokens).of_eq accepted
        exact inductionHypothesis node (heeds node) facesAfter False.elim
          (allows.2 node _ suffix.length_le fun takes => (leaves takes).length_lt)

/-- With an allowance that suffices, the procedures keep step. -/
theorem Call.within_matches
    {allowance : Nat} {call : Call} {intake : Intake} {tokens : List Lexed}
    (fits : call.Fits allowance tokens.length) (faces : Faces listing intake tokens) :
    Matches listing intake (call.within allowance tokens) (call.onDemand allowance intake) := by
  induction allowance generalizing call intake tokens with
  | zero =>
      obtain ⟨_, enough⟩ := fits
      cases call <;> cases enough
  | succ allowance inductionHypothesis =>
      rw [within_succ, onDemand_succ]
      exact Plan.run_matches (within_nil allowance) (within_advances allowance)
        (fun _ _ _ => inductionHypothesis) call.plan_heeds faces False.elim (plan_fits fits)

theorem numeral_matches
    {intake : Intake} {token : Lexed} {rest : List Lexed}
    (faces : Faces listing intake (token :: rest))
    (isNumber : token.kind = .number) :
    Matches listing intake (numeral token rest) intake.numeral := by
  rw [numeral, Intake.numeral, faces.token_eq.2.1]
  cases Number.Decimal.read? token.lexeme.toList with
  | none => exact .failed _ _
  | some decimal =>
      apply draw_andThen faces (by rw [isNumber]; decide)
      · rintro rfl
        exact .accepted _
      · intro after facesAfter
        exact .found facesAfter (Keeps.refl after)

/-! ### Definitions -/

variable {allowance : Nat} {intake : Intake} {tokens : List Lexed}

theorem expect_fewer
    {kind : Kind} {complaint : Complaint} {token : Lexed} {rest : List Lexed}
    (accepted : expect kind complaint tokens = .accepted token rest) :
    rest.length < tokens.length := by
  rw [(expect_eq_accepted accepted).1]
  exact Nat.lt_succ_self _

theorem prototype_fewer
    {head : Prototype} {rest : List Lexed} (accepted : prototype tokens = .accepted head rest) :
    rest.length < tokens.length := by
  obtain ⟨name, opening, names, closing, rfl, _⟩ := prototype_eq_accepted accepted
  simp only [List.length_cons, List.length_append]
  omega

theorem names_matches
    (faces : Faces listing intake tokens) (found : List String)
    (enough : tokens.length ≤ allowance) :
    Matches listing intake
      (.accepted (found.reverse ++ parameters tokens) (afterParameters tokens))
      (intake.names allowance found) := by
  induction allowance generalizing intake tokens found with
  | zero =>
      obtain ⟨token, rest, rfl⟩ := faces.exists_cons
      cases enough
  | succ allowance inductionHypothesis =>
      obtain ⟨token, rest, rfl⟩ := faces.exists_cons
      rw [Intake.names, faces.token_eq.1, faces.token_eq.2.1]
      by_cases isName : token.kind = .identifier
      · rw [if_pos isName, parameters_name isName, afterParameters_name isName]
        apply draw_andThen faces (by rw [isName]; decide)
        · rintro rfl
          exact .accepted _
        · intro after facesAfter
          have later := inductionHypothesis facesAfter (token.lexeme :: found)
            (Nat.le_of_succ_le_succ enough)
          rw [List.reverse_cons, List.append_assoc, List.singleton_append] at later
          exact later
      · rw [if_neg isName, parameters_other isName, afterParameters_other isName, List.append_nil]
        exact .found faces (Keeps.refl intake)

theorem prototype_matches
    (faces : Faces listing intake tokens) (enough : tokens.length ≤ allowance) :
    Matches listing intake (prototype tokens) (intake.prototype allowance) := by
  unfold prototype Intake.prototype
  apply (demand_matches faces (by decide) _).andThen
  · intro name _
    exact .interrupted
  · intro name afterName intake accepted faces
    have fewer := expect_fewer accepted
    apply (demand_matches faces (by decide) _).andThen
    · intro opening _
      exact .interrupted
    · intro opening rest intake accepted faces
      have fewerAgain := expect_fewer accepted
      -- The names are taken as one step here too, so that both readings have the same steps.
      change Matches listing intake
        ((Outcome.accepted (parameters rest) (afterParameters rest)).andThen fun parameters rest =>
          (expect .rightParenthesis .closingExpected rest).andThen fun _ after =>
            .accepted (Prototype.mk name.lexeme parameters) after) _
      apply (names_matches faces [] (by omega)).andThen
      · intro parameters _
        exact .interrupted
      · intro parameters afterNames intake _ faces
        apply (demand_matches faces (by decide) _).andThen
        · intro closing _
          exact .accepted _
        · intro closing after intake _ faces
          exact .found faces (Keeps.refl intake)

theorem Plan.within_matches
    {plan : Plan} (heeds : plan.Heeds False) (fits : plan.Calls (Call.Fits allowance) tokens.length)
    (faces : Faces listing intake tokens) :
    Matches listing intake (plan.run (Call.within allowance) tokens)
      (plan.draw (Call.onDemand allowance) intake) :=
  run_matches (Call.within_nil allowance) (Call.within_advances allowance)
    (fun _ _ _ => Call.within_matches) heeds faces False.elim fits

theorem conditional_matches
    (faces : Faces listing intake tokens) (enough : allowanceFor tokens ≤ allowance) :
    Matches listing intake (conditionalWithin allowance tokens) (intake.conditional allowance) := by
  rw [conditionalWithin_eq_run, Intake.conditional_eq_draw]
  exact Plan.within_matches Plan.conditional_heeds
    (Plan.conditional_fits (Nat.le_of_succ_le enough)) faces

theorem drawn_conditional_matches
    {token : Lexed} {rest : List Lexed} (faces : Faces listing intake (token :: rest))
    (isIf : token.kind = .ifWord) (enough : allowanceFor rest ≤ allowance) :
    Matches listing intake (conditionalWithin allowance rest)
      (intake.draw.andThen fun _ after => after.conditional allowance) := by
  apply draw_andThen faces (by rw [isIf]; decide)
  · rintro rfl
    rw [conditionalWithin_eq_run]
    exact Plan.run_nil (Call.within_nil allowance) _
  · intro after facesAfter
    exact conditional_matches facesAfter enough

theorem body_matches
    (faces : Faces listing intake tokens) (enough : allowanceFor tokens ≤ allowance) :
    Matches listing intake (bodyWithin allowance tokens) (intake.body allowance) := by
  rw [bodyWithin_eq_run, Intake.body_eq_draw]
  exact Plan.within_matches Plan.body_heeds (Plan.body_fits (Nat.le_of_succ_le enough)) faces

theorem definition_matches
    (faces : Faces listing intake tokens) (enough : allowanceFor tokens ≤ allowance) :
    Matches listing intake (definitionWithin allowance tokens) (intake.definition allowance) := by
  unfold definitionWithin Intake.definition
  unfold allowanceFor at enough
  apply (prototype_matches faces (by omega)).andThen
  · intro head _
    exact .interrupted
  · intro head rest intake accepted faces
    have fewer := prototype_fewer accepted
    apply (body_matches faces _).andThen
    · intro body _
      exact .accepted _
    · intro body left intake _ faces
      exact .found faces (Keeps.refl intake)
    · unfold allowanceFor
      omega

theorem drawn_definition_matches
    {token : Lexed} {rest : List Lexed} (faces : Faces listing intake (token :: rest))
    (isDefine : token.kind = .define) (enough : allowanceFor rest ≤ allowance) :
    Matches listing intake (definitionWithin allowance rest)
      (intake.draw.andThen fun _ after => after.definition allowance) := by
  apply draw_andThen faces (by rw [isDefine]; decide)
  · rintro rfl
    exact .interrupted
  · intro after facesAfter
    exact definition_matches facesAfter enough

end ExprWasm.Phrase
