import ExprWasm.Proofs.Phrase.FirstError
import ExprWasm.Proofs.Phrase.Lockstep
import ExprWasm.Proofs.Phrase.Unfinished

/-! The course of a program that is read on demand.

The parser that draws its tokens goes through the rounds of the loop over their list. It finds the
same functions and makes the same diagnostics, and the first of them is noted at the token where the
list has its first error. -/

set_option autoImplicit false

namespace ExprWasm.Phrase

open Token (Kind Lexed Lexer Listing)
open ExprWasm.Tree (Node Function)

/-! ### A definition ends before a token -/

section Followed

variable {allowance : Nat} {tokens rest : List Lexed} {node : Node}

theorem chainWithin_followed
    {operands : List Node} {waiting : List Waiting}
    (accepted : chainWithin allowance operands waiting tokens = .accepted node rest) :
    rest ≠ [] := by
  induction allowance generalizing operands waiting tokens with
  | zero => cases accepted
  | succ allowance inductionHypothesis =>
      cases tokens with
      | nil => cases accepted
      | cons token after =>
          rw [chainWithin] at accepted
          cases reduced : reduceFrom token.kind.precedence operands waiting with
          | error failure =>
              simp only [reduced] at accepted
              cases accepted
          | ok result =>
              obtain ⟨operands, waiting⟩ := result
              simp only [reduced] at accepted
              by_cases foreign : token.kind.precedence = 0
              · -- The chain has ended at this token, which is left.
                simp only [if_pos foreign] at accepted
                split at accepted
                · cases accepted
                  exact List.cons_ne_nil _ _
                · cases accepted
              · simp only [if_neg foreign] at accepted
                split at accepted
                · cases accepted
                · obtain ⟨operand, left, _, further⟩ := Outcome.andThen_eq_accepted accepted
                  exact inductionHypothesis further

theorem expressionWithin_followed
    (accepted : expressionWithin allowance tokens = .accepted node rest) : rest ≠ [] := by
  cases allowance with
  | zero => cases accepted
  | succ allowance =>
      obtain ⟨operand, left, _, further⟩ := Outcome.andThen_eq_accepted accepted
      exact chainWithin_followed further

theorem bodyWithin_followed
    (accepted : bodyWithin allowance tokens = .accepted node rest) : rest ≠ [] := by
  cases tokens with
  | nil => cases accepted
  | cons token after =>
      rw [bodyWithin] at accepted
      split at accepted
      · unfold conditionalWithin at accepted
        obtain ⟨_, _, _, accepted⟩ := Outcome.andThen_eq_accepted accepted
        obtain ⟨_, _, _, accepted⟩ := Outcome.andThen_eq_accepted accepted
        obtain ⟨_, _, _, accepted⟩ := Outcome.andThen_eq_accepted accepted
        obtain ⟨_, _, _, accepted⟩ := Outcome.andThen_eq_accepted accepted
        obtain ⟨_, _, last, accepted⟩ := Outcome.andThen_eq_accepted accepted
        cases accepted
        exact expressionWithin_followed last
      · exact expressionWithin_followed accepted

theorem definitionWithin_followed
    {function : Function} (accepted : definitionWithin allowance tokens = .accepted function rest) :
    rest ≠ [] := by
  unfold definitionWithin at accepted
  obtain ⟨_, _, _, accepted⟩ := Outcome.andThen_eq_accepted accepted
  obtain ⟨_, _, last, accepted⟩ := Outcome.andThen_eq_accepted accepted
  cases accepted
  exact bodyWithin_followed last

end Followed

/-! ### Both readings side by side -/

inductive Marks (start : List Lexed) : Note → Prop where
  | of {tokens before after : List Lexed} {lookahead : Lexed} {diagnostic : Diagnostic}
      (silent : Silent start tokens) (complains : Complains tokens diagnostic (lookahead :: after))
      (split : start = before.reverse ++ lookahead :: after) :
      Marks start ⟨diagnostic, lookahead :: before⟩

inductive Paused (start : List Lexed) : List Lexed → Prop where
  | of {define : Lexed} {rest tokens : List Lexed} {function : Function}
      (silent : Silent start (define :: rest)) (isDefine : define.kind = .define)
      (accepts : Descent.definition rest = .accepted function tokens) : Paused start tokens

structure Accounts (listing : Listing) (earlier : List Diagnostic) (findings : Findings)
    (intake : Intake) : Prop where
  functions : intake.functions = findings.functions
  diagnostics : findings.diagnostics = intake.notes.map Note.diagnostic ++ earlier
  first : ∀ note, intake.notes.getLast? = some note → Marks listing.tokens note

/-- The parser faces the tokens that are left of the list. As long as it has made no note, it has
come to them as `standing` says. -/
structure Tracks (listing : Listing) (earlier : List Diagnostic)
    (standing : List Lexed → List Lexed → Prop) (findings : Findings) (tokens : List Lexed)
    (intake : Intake) : Prop where
  faces : Faces listing intake tokens
  accounts : Accounts listing earlier findings intake
  unmarked : intake.notes = [] → standing listing.tokens tokens

inductive Passes (listing : Listing) (earlier : List Diagnostic)
    (standing : List Lexed → List Lexed → Prop) : Findings × List Lexed → Drawn Unit → Prop where
  | on {findings : Findings} {tokens : List Lexed} {intake : Intake}
      (tracks : Tracks listing earlier standing findings tokens intake) :
      Passes listing earlier standing (findings, tokens) (.found () intake)
  | out {findings : Findings} {failure : Failure} {intake : Intake}
      (ranOut : RanOut listing failure intake) (accounts : Accounts listing earlier findings intake) :
      Passes listing earlier standing (findings, []) (.stopped failure intake)

section Course

variable {listing : Listing} {earlier : List Diagnostic} {standing : List Lexed → List Lexed → Prop}
  {findings : Findings} {tokens : List Lexed} {intake : Intake} {allowance : Nat}

theorem Faces.marks
    {token : Lexed} {rest : List Lexed} {diagnostic : Diagnostic}
    (faces : Faces listing intake (token :: rest)) (silent : Silent listing.tokens tokens)
    (complains : Complains tokens diagnostic (token :: rest)) :
    Marks listing.tokens ⟨diagnostic, intake.drawn⟩ := by
  cases faces with
  | of supplies split =>
      refine .of silent complains ?_
      rw [split, List.reverse_cons, List.append_assoc, List.singleton_append]

theorem Faces.define
    (faces : Faces listing intake tokens) (functions : List Function) :
    Faces listing { intake with functions := functions } tokens := by
  cases faces with
  | of supplies split => exact .of supplies split

namespace Accounts

theorem keeps
    {after : Intake} (accounts : Accounts listing earlier findings intake)
    (keeps : Keeps intake after) : Accounts listing earlier findings after := by
  constructor
  · rw [keeps.functions, accounts.functions]
  · rw [keeps.notes, accounts.diagnostics]
  · rw [keeps.notes]
    exact accounts.first

/-- A further note. Only the first one has to mark the first error. -/
theorem noted
    {after : Intake} {diagnostic : Diagnostic} (accounts : Accounts listing earlier findings intake)
    (functions : after.functions = intake.functions)
    (notes : after.notes = ⟨diagnostic, after.drawn⟩ :: intake.notes)
    (marks : intake.notes = [] → Marks listing.tokens ⟨diagnostic, after.drawn⟩) :
    Accounts listing earlier (findings.diagnose diagnostic) after := by
  constructor
  · exact functions.trans accounts.functions
  · rw [notes, List.map_cons, List.cons_append, ← accounts.diagnostics]
    rfl
  · -- The latest note comes first in the list, so the first of all is its last.
    intro note isFirst
    rw [notes, List.getLast?_cons] at isFirst
    cases last : intake.notes.getLast? with
    | none =>
        rw [last] at isFirst
        cases isFirst
        exact marks (List.getLast?_eq_none_iff.mp last)
    | some first =>
        rw [last] at isFirst
        cases isFirst
        exact accounts.first first last

theorem note
    {token : Lexed} {rest : List Lexed} {complaint : Complaint}
    (accounts : Accounts listing earlier findings intake)
    (faces : Faces listing intake (token :: rest))
    (complains : intake.notes = [] →
      ∃ tokens, Silent listing.tokens tokens ∧
        Complains tokens (complaint.about token) (token :: rest)) :
    Accounts listing earlier (findings.diagnose (complaint.about token)) (intake.note complaint) := by
  have notes : (intake.note complaint).notes =
      ⟨complaint.about token, (intake.note complaint).drawn⟩ :: intake.notes := by
    rw [← faces.token_eq.2.2]
    rfl
  refine accounts.noted (by rfl) notes ?_
  intro unmarked
  obtain ⟨tokens, silent, complains⟩ := complains unmarked
  exact (faces.note complaint).marks silent complains

theorem recover
    (accounts : Accounts listing earlier findings intake) (tokens : List Lexed) :
    Accounts listing earlier (Phrase.recover findings tokens).1 intake := by
  obtain ⟨functions, diagnostics, _⟩ := recover_fields findings tokens
  constructor
  · rw [functions, accounts.functions]
  · rw [diagnostics, accounts.diagnostics]
  · exact accounts.first

end Accounts

theorem Matches.passes
    {drawn : Drawn Unit} (matched : Matches listing intake (.accepted () tokens) drawn)
    (accounts : Accounts listing earlier findings intake)
    (unmarked : intake.notes = [] → standing listing.tokens tokens) :
    Passes listing earlier standing (findings, tokens) drawn := by
  cases matched with
  | found faces keeps =>
      refine .on ⟨faces, accounts.keeps keeps, ?_⟩
      rw [keeps.notes]
      exact unmarked
  | stopped short ranOut keeps =>
      cases short with
      | accepted => exact .out ranOut (accounts.keeps keeps)

/-! ### One round -/

theorem skip_matches
    (faces : Faces listing intake tokens) (skipped : Nat) (enough : tokens.length ≤ allowance) :
    Matches listing intake (.accepted () (skipToBoundary skipped tokens).2)
      (intake.skip allowance) := by
  induction allowance generalizing intake tokens skipped with
  | zero =>
      obtain ⟨token, rest, rfl⟩ := faces.exists_cons
      cases enough
  | succ allowance inductionHypothesis =>
      obtain ⟨token, rest, rfl⟩ := faces.exists_cons
      rw [Intake.skip, skipToBoundary, faces.token_eq.1]
      cases bounds : isBoundary token.kind with
      | true => exact .found faces (Keeps.refl intake)
      | false =>
          rw [if_neg Bool.false_ne_true, if_neg Bool.false_ne_true]
          apply draw_andThen faces
          · intro isEnding
            rw [isEnding] at bounds
            cases bounds
          · rintro rfl
            exact .accepted ()
          · intro after facesAfter
            exact inductionHypothesis facesAfter (skipped + 1) (Nat.le_of_succ_le_succ enough)

/-- After a note the parser skips what the list reading skips. -/
theorem skip_passes
    (faces : Faces listing intake tokens) (accounts : Accounts listing earlier findings intake)
    (noted : intake.notes ≠ []) (enough : tokens.length ≤ allowance) :
    Passes listing earlier standing (recover findings tokens) (intake.skip allowance) := by
  have matched := skip_matches faces 0 enough
  rw [← (recover_fields findings tokens).2.2] at matched
  exact matched.passes (accounts.recover tokens) fun unmarked => absurd unmarked noted

theorem item_passes
    {token : Lexed} {rest : List Lexed}
    (tracks : Tracks listing earlier Silent findings (token :: rest) intake)
    (readable : Readable (token :: rest)) (inside : token.kind ≠ .endOfInput)
    (enough : allowanceFor (token :: rest) ≤ allowance) :
    Passes listing earlier Paused (Descent.item findings (token :: rest))
      (intake.item allowance) := by
  have faces := tracks.faces
  have enoughRest := Nat.le_trans (allowanceFor_suffix (List.suffix_cons token rest)) enough
  rw [Descent.item, Intake.item, faces.token_eq.1]
  by_cases isDefine : token.kind = .define
  · rw [if_pos isDefine, if_pos isDefine]
    have matched := drawn_definition_matches faces isDefine enoughRest
    rw [definitionWithin_eq enoughRest] at matched
    generalize intake.draw.andThen _ = drawn at matched ⊢
    cases found : Descent.definition rest with
    | accepted function left =>
        rw [found] at matched
        cases matched with
        | @found _ _ after facesAfter keeps =>
            have accounts := tracks.accounts.keeps keeps
            refine .on ⟨facesAfter.define _, ⟨?_, accounts.diagnostics, accounts.first⟩, ?_⟩
            · rw [accounts.functions]
              rfl
            · intro unmarked
              exact .of (tracks.unmarked (keeps.notes.symm.trans unmarked)) isDefine found
        | stopped short =>
            -- What is accepted leaves a token, and that has been drawn by then.
            rw [← definitionWithin_eq enoughRest] at found
            cases short with
            | accepted => exact absurd rfl (definitionWithin_followed found)
    | rejected diagnostic left =>
        rw [found] at matched
        cases matched with
        | @missing _ _ after facesAfter functions notes =>
            have remains := definition_remains readable.tail
            rw [found] at remains
            obtain ⟨next, beyond, rfl⟩ := facesAfter.exists_cons
            apply skip_passes facesAfter
            · apply tracks.accounts.noted functions notes
              intro unmarked
              exact facesAfter.marks (tracks.unmarked unmarked) (.rejected isDefine found)
            · rw [notes]
              exact List.cons_ne_nil _ _
            · have fewer := remains.length_le
              unfold allowanceFor at enoughRest
              omega
        | stopped short => cases short
    | interrupted =>
        rw [found] at matched
        cases matched with
        | stopped _ ranOut keeps => exact .out ranOut (tracks.accounts.keeps keeps)
    | failed failure =>
        have remains := definition_remains readable.tail
        rw [found] at remains
        exact remains.elim
  · rw [if_neg isDefine, if_neg isDefine]
    apply skip_passes (faces.note _)
    · apply tracks.accounts.note faces
      intro unmarked
      exact ⟨_, tracks.unmarked unmarked, .undefined inside isDefine⟩
    · exact List.cons_ne_nil _ _
    · unfold allowanceFor at enough
      omega

theorem terminator_passes (tracks : Tracks listing earlier Paused findings tokens intake) :
    Passes listing earlier Silent (terminator findings tokens) intake.terminator := by
  have faces := tracks.faces
  obtain ⟨token, rest, rfl⟩ := faces.exists_cons
  rw [terminator, Intake.terminator, faces.token_eq.1]
  by_cases isSemicolon : token.kind = .semicolon
  · rw [if_pos isSemicolon, if_pos isSemicolon]
    apply (draw_matches faces (by rw [isSemicolon]; decide)).passes tracks.accounts
    intro unmarked
    cases tracks.unmarked unmarked with
    | of silent isDefine accepts =>
        exact silent.trans (.more isDefine accepts isSemicolon (.none rest))
  · rw [if_neg isSemicolon, if_neg isSemicolon]
    refine .on ⟨faces.note _, ?_, fun unmarked => absurd unmarked (List.cons_ne_nil _ _)⟩
    apply tracks.accounts.note faces
    intro unmarked
    cases tracks.unmarked unmarked with
    | of silent isDefine accepts =>
        exact ⟨_, silent, .unterminated isDefine accepts isSemicolon⟩

theorem round_passes
    {token : Lexed} {rest : List Lexed}
    (tracks : Tracks listing earlier Silent findings (token :: rest) intake)
    (readable : Readable (token :: rest)) (inside : token.kind ≠ .endOfInput)
    (enough : allowanceFor (token :: rest) ≤ allowance) :
    Passes listing earlier Silent (Descent.round findings (token :: rest))
      ((intake.item allowance).andThen fun _ intake => intake.terminator) := by
  have passed := item_passes tracks readable inside enough
  rw [Descent.round]
  generalize Descent.item findings (token :: rest) = left at passed ⊢
  generalize intake.item allowance = drawn at passed ⊢
  cases passed with
  | on tracks => exact terminator_passes tracks
  | out ranOut accounts => exact .out ranOut accounts

/-! ### The whole program -/

theorem Faces.drained
    {token : Lexed} {rest : List Lexed} (faces : Faces listing intake (token :: rest))
    (isEnding : token.kind = .endOfInput) : listing.failure = none ∧ Drained listing intake := by
  cases faces with
  | @of lexer kind before _ functions notes supplies split =>
      change kind = .endOfInput at isEnding
      subst isEnding
      cases supplies with
      | ended complete =>
          rw [List.append_nil] at split
          refine ⟨complete, rfl, split.symm, ?_⟩
          rw [split, List.getLast?_reverse]
          rfl
      | fails inside => exact absurd rfl inside
      | more inside => exact absurd rfl inside

inductive Concludes (listing : Listing) (earlier : List Diagnostic) :
    Findings × Ending → Drawn Unit → Prop where
  | complete {findings : Findings} {intake : Intake} (isEnding : intake.token = .endOfInput)
      (unfailed : listing.failure = none) (drained : Drained listing intake)
      (accounts : Accounts listing earlier findings intake) :
      Concludes listing earlier (findings, .complete) (.found () intake)
  | interrupted {findings : Findings} {failure : Failure} {intake : Intake}
      (ranOut : RanOut listing failure intake) (accounts : Accounts listing earlier findings intake) :
      Concludes listing earlier (findings, .interrupted) (.stopped failure intake)

theorem programWithin_nil (items : Nat) :
    programWithin allowance items findings [] = (findings, .interrupted) := by
  cases items with
  | zero => rfl
  | succ items => rfl

theorem program_concludes
    (tracks : Tracks listing earlier Silent findings tokens intake) (readable : Readable tokens)
    {items onDemand turns : Nat} (enough : allowanceFor tokens ≤ allowance)
    (enoughItems : tokens.length ≤ items) (enoughOnDemand : allowanceFor tokens ≤ onDemand)
    (enoughTurns : tokens.length ≤ turns) :
    Concludes listing earlier (programWithin allowance items findings tokens)
      (intake.program onDemand turns) := by
  obtain ⟨token, rest, rfl⟩ := tracks.faces.exists_cons
  induction turns generalizing items findings token rest intake with
  | zero => cases enoughTurns
  | succ turns inductionHypothesis =>
      cases items with
      | zero => cases enoughItems
      | succ items =>
          rw [Intake.program, tracks.faces.token_eq.1]
          by_cases isEnding : token.kind = .endOfInput
          · rw [programWithin, if_pos isEnding, if_pos isEnding]
            obtain ⟨unfailed, drained⟩ := tracks.faces.drained isEnding
            exact .complete (tracks.faces.token_eq.1.trans isEnding) unfailed drained tracks.accounts
          · rw [if_neg isEnding, programWithin_round readable isEnding enough, ← Drawn.andThen_assoc]
            have suffix := round_suffix readable isEnding findings
            have within := suffix.trans (List.suffix_cons token rest)
            have passed := round_passes tracks readable isEnding enoughOnDemand
            generalize Descent.round findings (token :: rest) = left at passed suffix within ⊢
            generalize (intake.item onDemand).andThen _ = drawn at passed ⊢
            cases passed with
            | @on findings tokens intake tracks =>
                obtain ⟨next, beyond, rfl⟩ := tracks.faces.exists_cons
                have fewer := suffix.length_le
                apply inductionHypothesis _ _ tracks (readable.of_suffix within)
                · exact Nat.le_trans (allowanceFor_suffix within) enough
                · exact Nat.le_trans fewer (Nat.le_of_succ_le_succ enoughItems)
                · exact Nat.le_trans (allowanceFor_suffix within) enoughOnDemand
                · exact Nat.le_trans fewer (Nat.le_of_succ_le_succ enoughTurns)
            | out ranOut accounts =>
                rw [programWithin_nil]
                exact .interrupted ranOut accounts

end Course

def Intake.parser (intake : Intake) (earlier : List Diagnostic) : Parser :=
  { lexer := intake.lexer
    token := intake.token
    functions := intake.functions.reverse
    diagnostics := earlier ++ (intake.notes.map Note.diagnostic).reverse }

namespace Parser

structure Settles (parser : Parser) (final : Intake) : Prop where
  after : parser.parse.parser = final.parser parser.diagnostics
  drawn : final.drawn.reverse = parser.lexer.listing.tokens
  first : ∀ note, final.notes.getLast? = some note → Marks parser.lexer.listing.tokens note

inductive Agrees (parser : Parser) : Drawn Unit → Prop where
  | complete {final : Intake} (outcome : parser.parse.outcome = .ok ())
      (unfailed : parser.lexer.listing.failure = none) (isEnding : final.token = .endOfInput)
      (settles : parser.Settles final) : Agrees parser (.found () final)
  | interrupted {failure : Failure} {final : Intake} (outcome : parser.parse.outcome = .error failure)
      (failed : parser.lexer.listing.failure = some failure) (settles : parser.Settles final) :
      Agrees parser (.stopped failure final)

theorem Agrees.settled {parser : Parser} {drawn : Drawn Unit} (agrees : parser.Agrees drawn) :
    ∃ final, drawn.intake? = some final ∧ parser.Settles final := by
  cases agrees with
  | complete _ _ _ settles => exact ⟨_, rfl, settles⟩
  | interrupted _ _ settles => exact ⟨_, rfl, settles⟩

theorem settles_of_drained
    {parser : Parser} {found : Findings} {ending : Ending}
    (read : program parser.findings parser.lexer.listing.tokens = (found, ending))
    {final : Intake} (drained : Drained parser.lexer.listing final)
    (accounts : Accounts parser.lexer.listing parser.diagnostics.reverse found final) :
    parser.Settles final := by
  refine ⟨?_, drained.drawn, accounts.first⟩
  rw [parse_after read, drained.token, ← drained.lexer, ← accounts.functions, accounts.diagnostics,
    List.reverse_append, List.reverse_reverse]
  rfl

theorem agrees_of_concludes
    {parser : Parser} {drawn : Drawn Unit}
    (concludes : Concludes parser.lexer.listing parser.diagnostics.reverse
      (program parser.findings parser.lexer.listing.tokens) drawn) : parser.Agrees drawn := by
  generalize read : program parser.findings parser.lexer.listing.tokens = result at concludes
  cases concludes with
  | complete isEnding unfailed drained accounts =>
      exact .complete (parse_outcome_of_complete read rfl) unfailed isEnding
        (settles_of_drained read drained accounts)
  | interrupted ranOut accounts =>
      exact .interrupted (parse_outcome_of_interrupted read rfl ranOut.failed) ranOut.failed
        (settles_of_drained read ranOut.toDrained accounts)

theorem tracks_first
    {parser : Parser} {first : Kind} {after : Lexer} {rest : List Lexed}
    (listed : parser.lexer.listing.tokens = after.lexed first :: rest)
    (later : Lexer.Supplies parser.lexer.listing.failure parser.lexer.listing.lexer first after rest) :
    Tracks parser.lexer.listing parser.diagnostics.reverse Silent parser.findings
      (after.lexed first :: rest)
      ⟨after, first, [after.lexed first], parser.functions.reverse, []⟩ := by
  refine ⟨.of later listed, ⟨rfl, rfl, fun note none => nomatch none⟩, fun _ => ?_⟩
  rw [listed]
  exact .none _

/-- Reading on demand comes to what reading the list comes to. -/
theorem parseOnDemand_agrees (parser : Parser) : parser.Agrees parser.parseOnDemand := by
  have supplies := @Lexer.listing_supplies parser.lexer .noToken (by decide)
  have readable := supplies.readable
  have few := supplies.length_le
  unfold parseOnDemand Intake.parse Intake.draw
  generalize listed : parser.lexer.listing.tokens = tokens at supplies readable few
  cases supplies with
  | fails _ fails failed =>
      -- Not even the first token can be drawn.
      have interrupted : program parser.findings parser.lexer.listing.tokens =
          (parser.findings, .interrupted) := by
        rw [listed]
        rfl
      rw [fails]
      refine .interrupted (parse_outcome_of_interrupted interrupted rfl failed) failed
        ⟨?_, listed.symm, fun note none => nomatch none⟩
      rw [parse_after interrupted, listed]
      simp [findings, Intake.parser]
  | @more _ first _ after rest _ reads later =>
      have enough : allowanceFor (after.lexed first :: rest) ≤ 3 * parser.lexer.remaining + 6 := by
        unfold allowanceFor
        omega
      rw [reads]
      apply agrees_of_concludes
      rw [listed]
      exact program_concludes (tracks_first listed later) readable (Nat.le_refl _) (Nat.le_succ _)
        enough (Nat.le_trans few (by omega))

end Parser

end ExprWasm.Phrase
