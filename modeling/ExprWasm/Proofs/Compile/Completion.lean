import ExprWasm.Proofs.Compile.Origins
import ExprWasm.Proofs.Phrase.Unfinished
import ExprWasm.Proofs.Token.Supply
import ExprWasm.Proofs.Wat.Rendering

/-! How the reading of any source ends.

A source whose tokens could all be listed is read to the end of the input, with a program as the
outcome; any other is refused with the failure that its stream met. There is no third case. -/

set_option autoImplicit false

namespace ExprWasm.Compile

open Source (Chunk Raises Reader)
open Token (Kind Lexed Lexer)
open Phrase (Body Closed Findings Rounds parse_of_rounds)

section Source

variable {source : List Chunk}

theorem ofSource_supplies (source : List Chunk) :
    Lexer.Supplies (Lexer.ofSource source).listing.failure (Lexer.ofSource source).listing.lexer
      .noToken (Lexer.ofSource source) (Lexer.ofSource source).listing.tokens :=
  Lexer.listing_supplies _ (by decide)

theorem listing_closed (complete : (Lexer.ofSource source).listing.failure = none) :
    ∃ body ending, (Lexer.ofSource source).listing.tokens = body ++ [ending] ∧
      ending.kind = .endOfInput ∧ Phrase.Unended body ∧ Closed (body ++ [ending]) := by
  have supplies := ofSource_supplies source
  obtain ⟨body, ending, split, isEnding, unended⟩ := supplies.eq_append_ending complete (by decide)
  have readable := supplies.readable
  rw [split] at readable
  refine ⟨body, ending, split, isEnding, unended, Closed.of_boundary ?_ unended readable.left⟩
  rw [isEnding]
  rfl

/-- Without a failure the rounds of the loop lead to the end of the input. -/
theorem parse_complete (complete : (Lexer.ofSource source).listing.failure = none) :
    ∃ body ending later, (Lexer.ofSource source).listing.tokens = body ++ [ending] ∧
      ending.kind = .endOfInput ∧ Closed (body ++ [ending]) ∧
      Rounds {} (body ++ [ending]) later [ending] ∧
      (parse source).outcome = .ok ⟨later.functions.reverse, later.diagnostics.reverse⟩ := by
  obtain ⟨body, ending, split, isEnding, _, closed⟩ := listing_closed complete
  obtain ⟨later, rounds⟩ := Rounds.exist_to_end isEnding closed {}
  refine ⟨body, ending, later, split, isEnding, closed, rounds, ?_⟩
  rw [← split] at closed rounds
  exact parse_of_rounds closed rounds isEnding

theorem parse_incomplete
    {failure : Failure} (incomplete : (Lexer.ofSource source).listing.failure = some failure) :
    (parse source).outcome = .error failure ∧ Raises source failure := by
  have supplies := ofSource_supplies source
  obtain ⟨unended, holds⟩ := supplies.unended incomplete
  exact ⟨Phrase.parse_of_unended incomplete unended supplies.readable,
    Reader.raises_of_ofChunks holds⟩

/-- The tokens of a source that has a program could all be listed. -/
theorem complete_of_program
    {program : Program} (parsed : (parse source).outcome = .ok program) :
    (Lexer.ofSource source).listing.failure = none := by
  cases listed : (Lexer.ofSource source).listing.failure with
  | none => rfl
  | some failure =>
      rw [(parse_incomplete listed).1] at parsed
      cases parsed

theorem incomplete_of_error
    {failure : Failure} (failed : (parse source).outcome = .error failure) :
    (Lexer.ofSource source).listing.failure = some failure := by
  cases listed : (Lexer.ofSource source).listing.failure with
  | none =>
      rcases parse_complete listed with ⟨_, _, _, _, _, _, _, parsed⟩
      rw [failed] at parsed
      cases parsed
  | some other =>
      rw [(parse_incomplete listed).1] at failed
      rw [Except.error.inj failed]

/-- Whatever errors there are, the functions of a program have bodies. -/
theorem program_bodies {program : Program} (parsed : (parse source).outcome = .ok program) :
    ∀ function ∈ program.functions, Body (fun _ => True) function.body := by
  rcases parse_complete (complete_of_program parsed) with
    ⟨body, ending, later, _, _, closed, rounds, same⟩
  rcases rounds.originate closed with ⟨functions, found, origins, left, _, rfl, read⟩
  rw [same] at parsed
  cases parsed
  intro function member
  rw [found, List.append_nil, List.reverse_reverse] at member
  rcases List.mem_map.mp member with ⟨origin, inside, rfl⟩
  exact (read origin inside).body fun _ _ _ => trivial

/-- The module of a program that was read can be generated. -/
theorem program_emittable {program : Program} (parsed : (parse source).outcome = .ok program) :
    (Wat.lines program.tree).failure = none :=
  Wat.unit_complete (program_bodies parsed)

/-- The result for a source that has a program. -/
theorem compileSource_of_program
    {program : Program} (parsed : (parse source).outcome = .ok program) (filename : String) :
    (compileSource source filename).outcome =
      .ok
        { filename := filename
          functions := program.functions
          diagnostics := program.diagnostics
          moduleText :=
            if program.diagnostics.isEmpty then
              some (String.join (Wat.terminated (Wat.lines program.tree).texts))
            else none } := by
  have rendered := Wat.render_complete (program_emittable parsed)
  unfold compileSource
  simp only [parsed]
  cases silent : program.diagnostics with
  | nil => simp only [rendered, List.isEmpty_nil, if_true]
  | cons first later => rfl

end Source

/-- Every source has a program or is refused with a failure of its own. -/
theorem parse_cases (source : List Chunk) :
    (∃ program, (parse source).outcome = .ok program) ∨
      ∃ failure, (parse source).outcome = .error failure ∧ Raises source failure := by
  cases listed : (Lexer.ofSource source).listing.failure with
  | some failure => exact Or.inr ⟨failure, parse_incomplete listed⟩
  | none =>
      obtain ⟨_, _, _, _, _, _, _, parsed⟩ := parse_complete listed
      exact Or.inl ⟨_, parsed⟩

end ExprWasm.Compile
