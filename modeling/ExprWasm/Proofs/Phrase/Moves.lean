import ExprWasm.Proofs.Phrase.Demand

/-! What a parser that draws its tokens does, move by move.

It draws a token, notes a complaint about its lookahead, or adds a function, and nothing else. So
what each of these moves keeps is kept by every procedure. In this way the notes are found in the
order of the tokens, each of them about the last token that was drawn when it was made. -/

set_option autoImplicit false

namespace ExprWasm.Phrase

open Token (Kind Lexed Lexer)
open ExprWasm.Tree (Node Operator Function)

inductive Move : Intake → Intake → Prop where
  | draw {intake : Intake} {kind : Kind} {after : Lexer}
      (read : intake.lexer.next = (.ok kind, after)) :
      Move intake
        { intake with lexer := after, token := kind, drawn := after.lexed kind :: intake.drawn }
  | note (intake : Intake) (complaint : Complaint) : Move intake (intake.note complaint)
  | define (intake : Intake) (function : Function) :
      Move intake { intake with functions := function :: intake.functions }

inductive Moves : Intake → Intake → Prop where
  | none (intake : Intake) : Moves intake intake
  | more {first second last : Intake} (move : Move first second) (later : Moves second last) :
      Moves first last

theorem Moves.trans
    {first second last : Intake} (moves : Moves first second) (later : Moves second last) :
    Moves first last := by
  induction moves with
  | none intake => exact later
  | more move _ inductionHypothesis => exact .more move (inductionHypothesis later)

theorem Move.moves {first second : Intake} (move : Move first second) : Moves first second :=
  .more move (.none second)

namespace Drawn

def Reaches {α : Type} (start : Intake) : Drawn α → Prop
  | found _ intake => Moves start intake
  | missing intake => Moves start intake
  | stopped _ _ => True
  | exhausted => True

namespace Reaches

variable {α β : Type} {start intake : Intake} {drawn : Drawn α}

theorem after (reaches : drawn.Reaches intake) (moves : Moves start intake) :
    drawn.Reaches start := by
  cases drawn with
  | found value last => exact moves.trans reaches
  | missing last => exact moves.trans reaches
  | stopped failure last => trivial
  | exhausted => trivial

theorem andThen
    {continuation : α → Intake → Drawn β} (reaches : drawn.Reaches start)
    (later : ∀ value intake, (continuation value intake).Reaches intake) :
    (drawn.andThen continuation).Reaches start := by
  cases drawn with
  | found value last => exact (later value last).after reaches
  | missing last => exact reaches
  | stopped failure last => trivial
  | exhausted => trivial

end Reaches

end Drawn

/-! ### The procedures -/

namespace Intake

theorem draw_reaches (intake : Intake) : intake.draw.Reaches intake := by
  unfold draw
  cases read : intake.lexer.next with
  | mk outcome after =>
      cases outcome with
      | error failure => trivial
      | ok kind => exact (Move.draw read).moves

theorem draw_andThen_reaches
    {α : Type} {continuation : Unit → Intake → Drawn α} (intake : Intake)
    (later : ∀ intake, (continuation () intake).Reaches intake) :
    (intake.draw.andThen continuation).Reaches intake :=
  intake.draw_reaches.andThen fun _ => later

theorem demand_reaches (intake : Intake) (kind : Kind) (complaint : Complaint) :
    (intake.demand kind complaint).Reaches intake := by
  unfold demand
  split
  · exact intake.draw_andThen_reaches .none
  · exact (Move.note intake complaint).moves

theorem plan_reaches
    {calls : Call → Intake → Drawn Node} (reach : ∀ call intake, (calls call intake).Reaches intake)
    (plan : Plan) (intake : Intake) : (plan.draw calls intake).Reaches intake := by
  induction plan generalizing intake with
  | accept node => exact .none intake
  | reject complaint => exact (Move.note intake complaint).moves
  | fail failure => trivial
  | look next inductionHypothesis => exact inductionHypothesis intake.token _ intake
  | take next inductionHypothesis => exact intake.draw_andThen_reaches inductionHypothesis
  | call first next inductionHypothesis => exact (reach first intake).andThen inductionHypothesis

theorem onDemand_reaches (allowance : Nat) (call : Call) (intake : Intake) :
    (call.onDemand allowance intake).Reaches intake := by
  induction allowance generalizing call intake with
  | zero =>
      rw [call.onDemand_zero]
      trivial
  | succ allowance inductionHypothesis =>
      rw [call.onDemand_succ]
      exact plan_reaches inductionHypothesis call.plan intake

theorem names_reaches (allowance : Nat) (found : List String) (intake : Intake) :
    (intake.names allowance found).Reaches intake := by
  induction allowance generalizing found intake with
  | zero => trivial
  | succ allowance inductionHypothesis =>
      rw [names]
      split
      · exact intake.draw_andThen_reaches (inductionHypothesis _)
      · exact .none intake

theorem prototype_reaches (allowance : Nat) (intake : Intake) :
    (intake.prototype allowance).Reaches intake := by
  apply (intake.demand_reaches _ _).andThen
  intro name intake
  apply (intake.demand_reaches _ _).andThen
  intro _ intake
  apply (intake.names_reaches allowance []).andThen
  intro parameters intake
  exact (intake.demand_reaches _ _).andThen fun _ => .none

theorem body_reaches (allowance : Nat) (intake : Intake) :
    (intake.body allowance).Reaches intake := by
  rw [body_eq_draw]
  exact plan_reaches (onDemand_reaches allowance) Plan.body intake

theorem definition_reaches (allowance : Nat) (intake : Intake) :
    (intake.definition allowance).Reaches intake := by
  apply (intake.prototype_reaches allowance).andThen
  intro head intake
  exact (intake.body_reaches allowance).andThen fun _ => .none

theorem skip_reaches (allowance : Nat) (intake : Intake) :
    (intake.skip allowance).Reaches intake := by
  induction allowance generalizing intake with
  | zero => trivial
  | succ allowance inductionHypothesis =>
      rw [skip]
      split
      · exact .none intake
      · exact intake.draw_andThen_reaches inductionHypothesis

theorem item_reaches (allowance : Nat) (intake : Intake) :
    (intake.item allowance).Reaches intake := by
  unfold item
  split
  · have reaches : (intake.draw.andThen fun _ intake => intake.definition allowance).Reaches intake :=
      intake.draw_andThen_reaches (definition_reaches allowance)
    generalize intake.draw.andThen _ = drawn at reaches
    cases drawn with
    | found function last => exact reaches.trans (Move.define last function).moves
    | missing last => exact (last.skip_reaches allowance).after reaches
    | stopped failure last => trivial
    | exhausted => trivial
  · exact (skip_reaches allowance _).after (Move.note intake _).moves

theorem terminator_reaches (intake : Intake) : intake.terminator.Reaches intake := by
  unfold terminator
  split
  · exact intake.draw_reaches
  · exact (Move.note intake _).moves

theorem program_reaches (allowance items : Nat) (intake : Intake) :
    (intake.program allowance items).Reaches intake := by
  induction items generalizing intake with
  | zero => trivial
  | succ items inductionHypothesis =>
      rw [program]
      split
      · exact .none intake
      · apply (intake.item_reaches allowance).andThen
        intro _ intake
        exact intake.terminator_reaches.andThen fun _ => inductionHypothesis

end Intake

/-! ### The notes -/

def Note.AboutLookahead (note : Note) : Prop :=
  ∃ complaint lookahead before,
    note = ⟨Complaint.about complaint lookahead, lookahead :: before⟩

structure Orderly (intake : Intake) : Prop where
  held : ∃ before, intake.drawn = intake.lookahead :: before
  about : ∀ note ∈ intake.notes, note.AboutLookahead
  earlier : ∀ note ∈ intake.notes, note.drawn <:+ intake.drawn
  ordered : intake.notes.Pairwise fun later note => note.drawn <:+ later.drawn

theorem Move.orderly {first second : Intake} (move : Move first second) (orderly : Orderly first) :
    Orderly second := by
  cases move with
  | draw read =>
      refine ⟨⟨first.drawn, rfl⟩, orderly.about, ?_, orderly.ordered⟩
      intro note member
      exact (orderly.earlier note member).trans (List.suffix_cons _ _)
  | note complaint =>
      obtain ⟨before, drawn⟩ := orderly.held
      refine ⟨orderly.held, ?_, ?_, .cons orderly.earlier orderly.ordered⟩
      · refine List.forall_mem_cons.mpr ⟨⟨complaint, first.lookahead, before, ?_⟩, orderly.about⟩
        rw [drawn]
      · exact List.forall_mem_cons.mpr ⟨List.suffix_refl _, orderly.earlier⟩
  | define function => exact ⟨orderly.held, orderly.about, orderly.earlier, orderly.ordered⟩

theorem Moves.orderly {first last : Intake} (moves : Moves first last) (orderly : Orderly first) :
    Orderly last := by
  induction moves with
  | none intake => exact orderly
  | more move _ inductionHypothesis => exact inductionHypothesis (move.orderly orderly)

/-- Where the lines of the tokens do not descend, those of the diagnostics do not either. -/
theorem Orderly.ascends
    {intake : Intake} (orderly : Orderly intake)
    (ascends : intake.drawn.Pairwise fun later token => token.line ≤ later.line) :
    intake.notes.Pairwise fun later note => note.diagnostic.line ≤ later.diagnostic.line := by
  refine List.Pairwise.imp_of_mem ?_ orderly.ordered
  intro later note memberLater member suffix
  have within := ascends.sublist (orderly.earlier later memberLater).sublist
  obtain ⟨_, last, beforeLast, rfl⟩ := orderly.about later memberLater
  obtain ⟨_, lookahead, before, rfl⟩ := orderly.about note member
  change lookahead.line ≤ last.line
  rcases List.mem_cons.mp (suffix.subset (List.mem_cons_self ..)) with rfl | further
  · exact Int.le_refl _
  · exact (List.pairwise_cons.mp within).1 lookahead further

/-- A program that is read on demand leaves its notes in order. -/
theorem Parser.parseOnDemand_orderly
    {parser : Parser} {final : Intake} (returns : parser.parseOnDemand = .found () final) :
    Orderly final := by
  unfold parseOnDemand Intake.parse Intake.draw at returns
  cases read : parser.lexer.next with
  | mk outcome after =>
      rw [read] at returns
      cases outcome with
      | error failure => cases returns
      | ok kind =>
          have reaches := Intake.program_reaches (3 * parser.lexer.remaining + 6)
            (3 * parser.lexer.remaining + 6)
            ⟨after, kind, [after.lexed kind], parser.functions.reverse, []⟩
          change Intake.program _ _ _ = _ at returns
          rw [returns] at reaches
          exact Moves.orderly reaches
            ⟨⟨[], rfl⟩, List.forall_mem_nil _, List.forall_mem_nil _, .nil⟩

end ExprWasm.Phrase
