import ExprWasm.Proofs.Compile.Completion
import ExprWasm.Proofs.Compile.PrintedBack

/-! The names of a program are words of its source.

Whatever a source delivers, a token that is found to be a name is spelled as one. The parser takes
its names from such tokens, so the functions of a program, their parameters and all that their
bodies refer to have names of letters and numerals. -/

set_option autoImplicit false

namespace ExprWasm.Token

open Source (isNamePart)

theorem Word.nameParts {text : List Char} (word : Word .identifier text) :
    ∀ c ∈ text, isNamePart c = true := by
  generalize isName : Kind.identifier = kind at word
  cases word with
  | name starts parts => exact List.forall_mem_cons.mpr ⟨namePart_of_nameStart starts, parts⟩
  | keyword reserved =>
      subst isName
      simp [keywords] at reserved
  | symbol listed =>
      subst isName
      simp [symbols] at listed
  | whole => cases isName
  | fraction => cases isName
  | notEqual => cases isName
  | equal => cases isName
  | unknown => cases isName

namespace Lexer

theorem Supplies.names
    {failure : Option Failure} {last lexer : Lexer} {kind : Kind} {tokens : List Lexed}
    (supplies : Supplies failure last kind lexer tokens) :
    Phrase.Names Compile.SpelledName tokens := by
  induction supplies with
  | ended => exact List.forall_mem_nil _
  | fails => exact List.forall_mem_nil _
  | @more kind next lexer after rest inside read later inductionHypothesis =>
      have grounded := next_grounded lexer
      rw [read] at grounded
      refine List.forall_mem_cons.mpr ⟨?_, inductionHypothesis⟩
      intro isName
      exact grounded.word _ (congrArg Except.ok isName) (by decide)

end Lexer

end ExprWasm.Token

namespace ExprWasm.Phrase

open Token (Kind Lexed)
open ExprWasm.Tree (Function Prototype)

structure NamedHead (named : String → Prop) (head : Prototype) : Prop where
  name : named head.name
  parameters : ∀ parameter ∈ head.parameters, named parameter

theorem prototype_named
    {named : String → Prop} {tokens rest : List Lexed} {head : Prototype}
    (names : Names named tokens) (accepted : prototype tokens = .accepted head rest) :
    NamedHead named head := by
  rcases prototype_eq_accepted accepted with
    ⟨name, opening, parameters, closing, split, isName, isOpening, areNames, isClosing⟩
  rw [split, prototype_eq isName isOpening areNames isClosing] at accepted
  cases accepted
  subst split
  constructor
  · exact names name (List.mem_cons_self ..) isName
  · intro parameter member
    rcases List.mem_map.mp member with ⟨token, inside, rfl⟩
    apply names token _ (areNames token inside)
    exact List.mem_cons_of_mem _ (List.mem_cons_of_mem _ (List.mem_append_left _ inside))

theorem definition_named
    {named : String → Prop} {tokens rest : List Lexed} {function : Function}
    (names : Names named tokens) (accepted : Descent.definition tokens = .accepted function rest) :
    NamedHead named function.prototype := by
  rcases Outcome.andThen_eq_accepted accepted with ⟨head, inside, read, accepted⟩
  rcases Outcome.andThen_eq_accepted accepted with ⟨body, outside, _, accepted⟩
  cases accepted
  exact prototype_named names read

theorem Origin.Read.named
    {origin : Origin} (read : origin.Read) {named : String → Prop}
    (names : Names named origin.span) :
    NamedHead named origin.function.prototype ∧ Body named origin.function.body := by
  rcases read.accepted names with ⟨tokens, rest, namesAlone, accepted⟩
  exact ⟨definition_named namesAlone accepted, read.body names⟩

inductive Defines : List Lexed → List Function → Prop where
  | none : Defines [] []
  | more {span rest : List Lexed} {semicolon : Lexed} {function : Function}
      {functions : List Function} (read : (⟨[], span, function⟩ : Origin).Read)
      (isSemicolon : semicolon.kind = .semicolon) (others : Defines rest functions) :
      Defines (span ++ semicolon :: rest) (function :: functions)

/-- Rounds without a diagnostic take definitions and nothing else. -/
theorem Rounds.defines
    {findings later : Findings} {tokens remaining : List Lexed}
    (rounds : Rounds findings tokens later remaining) (closed : Closed tokens)
    (silent : later.diagnostics.length = findings.diagnostics.length) :
    ∃ body functions, tokens = body ++ remaining ∧
      later.functions = functions.reverse ++ findings.functions ∧ Defines body functions := by
  induction rounds with
  | none findings tokens => exact ⟨[], [], rfl, rfl, Defines.none⟩
  | @more findings later token rest remaining inside others inductionHypothesis =>
      have closedRound := closed.round inside findings
      have kept := Rounds.diagnostics_grow others closedRound
      rcases round_origin closed.complete findings with
        ⟨_, grown⟩ | ⟨span, function, left, read, split, added, semicolon | grown⟩
      · omega
      · have one : Rounds findings (token :: rest) _ _ := Rounds.more inside (Rounds.none _ _)
        have grows := one.diagnostics_grow closed
        rcases kinds_eq_singleton semicolon with ⟨token, rfl, isSemicolon⟩
        rcases inductionHypothesis closedRound (by omega) with
          ⟨body, functions, splitRest, found, defines⟩
        refine ⟨span ++ token :: body, function :: functions, ?_, ?_,
          Defines.more read isSemicolon defines⟩
        · rw [split, splitRest]
          simp only [List.append_assoc, List.cons_append, List.nil_append]
        · rw [found, added, List.reverse_cons, List.append_assoc, List.singleton_append]
      · omega

end ExprWasm.Phrase

namespace ExprWasm.Compile

open Source (Chunk)
open Token (Lexer)
open Phrase (Body Defines NamedHead)

/-- Whatever errors there are, the functions of a program have the names of tokens. -/
theorem program_named
    {source : List Chunk} {program : Program} (parsed : (parse source).outcome = .ok program) :
    ∀ function ∈ program.functions,
      NamedHead SpelledName function.prototype ∧ Body SpelledName function.body := by
  have names := (ofSource_supplies source).names
  rcases parse_complete (complete_of_program parsed) with
    ⟨body, ending, later, split, _, closed, rounds, same⟩
  rcases rounds.originate closed with ⟨functions, found, origins, left, spans, rfl, read⟩
  rw [same] at parsed
  cases parsed
  intro function member
  rw [found, List.append_nil, List.reverse_reverse] at member
  rcases List.mem_map.mp member with ⟨origin, inside, rfl⟩
  apply (read origin inside).named
  intro token inSpan
  apply names
  rw [split, spans]
  apply List.mem_append_left
  exact List.mem_flatMap.mpr ⟨origin, inside, List.mem_append_right _ inSpan⟩

/-- The tokens of a program without diagnostics are the definitions of its functions. -/
theorem program_defined
    {source : List Chunk} {program : Program} (parsed : (parse source).outcome = .ok program)
    (silent : program.diagnostics = []) :
    ∃ tokens ending, (Lexer.ofSource source).listing.tokens = tokens ++ [ending] ∧
      ending.kind = .endOfInput ∧ Defines tokens program.functions := by
  rcases parse_complete (complete_of_program parsed) with
    ⟨body, ending, later, split, isEnding, closed, rounds, same⟩
  rw [same] at parsed
  cases parsed
  rcases rounds.defines closed (congrArg List.length (List.reverse_eq_nil_iff.mp silent)) with
    ⟨taken, functions, splitTaken, found, defines⟩
  refine ⟨body, ending, split, isEnding, ?_⟩
  rw [List.append_cancel_right splitTaken, found, List.append_nil, List.reverse_reverse]
  exact defines

end ExprWasm.Compile
