import ExprWasm.Proofs.Compile.Acceptance
import ExprWasm.Proofs.Phrase.Locality
import ExprWasm.Proofs.Phrase.Replacement
import ExprWasm.Proofs.Phrase.Shape
import ExprWasm.Proofs.Token.Pieces

/-! Where the functions of a program come from.

Whatever errors a text has, each function that is found in it comes from consecutive tokens of its
own, and these alone define it: recovery from the errors around it neither makes up a function nor
changes one. -/

set_option autoImplicit false

namespace ExprWasm.Phrase

open Token (Kind Lexed)
open ExprWasm.Tree (Function)

structure Origin where
  skipped : List Lexed
  span : List Lexed
  function : Function

namespace Origin

def tokens (origins : List Origin) : List Lexed :=
  origins.flatMap fun origin => origin.skipped ++ origin.span

def Read (origin : Origin) : Prop :=
  ∃ define taken next after, origin.span = define :: taken ∧ define.kind = .define ∧
    Derives .definition (kinds origin.span) ∧
    Descent.definition (taken ++ next :: after) = .accepted origin.function (next :: after)

end Origin

theorem terminator_functions (findings : Findings) (tokens : List Lexed) :
    (terminator findings tokens).1.functions = findings.functions := by
  cases tokens with
  | nil => rfl
  | cons token rest =>
      rw [terminator]
      split
      · rfl
      · rfl

theorem terminator_diagnostics (findings : Findings) (tokens : List Lexed) :
    findings.diagnostics.length ≤ (terminator findings tokens).1.diagnostics.length := by
  cases tokens with
  | nil => exact Nat.le_refl _
  | cons token rest =>
      rw [terminator]
      split
      · exact Nat.le_refl _
      · exact Nat.le_succ _

/-- What a round can do for the functions: nothing, or it takes the tokens of one. Unless it adds to
the diagnostics, it does the latter and takes the semicolon after them. -/
theorem round_origin
    {token : Lexed} {rest : List Lexed} (complete : Complete (token :: rest))
    (findings : Findings) :
    ((Descent.round findings (token :: rest)).1.functions = findings.functions ∧
      findings.diagnostics.length <
        (Descent.round findings (token :: rest)).1.diagnostics.length) ∨
      ∃ span function left, (⟨[], span, function⟩ : Origin).Read ∧
        token :: rest = span ++ (left ++ (Descent.round findings (token :: rest)).2) ∧
        (Descent.round findings (token :: rest)).1.functions =
          function :: findings.functions ∧
        (kinds left = [.semicolon] ∨ findings.diagnostics.length <
          (Descent.round findings (token :: rest)).1.diagnostics.length) := by
  have recovered (diagnostic : Diagnostic) (remaining : List Lexed) :
      (terminator (recover (findings.diagnose diagnostic) remaining).1
          (recover (findings.diagnose diagnostic) remaining).2).1.functions = findings.functions ∧
        findings.diagnostics.length <
          (terminator (recover (findings.diagnose diagnostic) remaining).1
            (recover (findings.diagnose diagnostic) remaining).2).1.diagnostics.length := by
    obtain ⟨functions, diagnostics, _⟩ := recover_fields (findings.diagnose diagnostic) remaining
    refine ⟨(terminator_functions _ _).trans functions, ?_⟩
    refine Nat.lt_of_lt_of_le ?_ (terminator_diagnostics _ _)
    rw [diagnostics]
    exact Nat.lt_succ_self _
  unfold Descent.round
  rw [Descent.item]
  by_cases isDefine : token.kind = .define
  · rw [if_pos isDefine]
    have completeRest := complete.tail (by rw [isDefine]; rfl)
    have decided := Descent.definition_decided completeRest
    cases found : Descent.definition rest with
    | accepted function remaining =>
        right
        rw [found] at decided
        obtain ⟨taken, splits, derived⟩ := decided
        cases remaining with
        | nil => exact absurd rfl (completeRest.of_splits splits).ne_nil
        | cons next after =>
            have split := splits.split
            have read : (⟨[], token :: taken, function⟩ : Origin).Read := by
              refine ⟨token, taken, next, after, rfl, isDefine, ?_, ?_⟩
              · rw [kinds_cons, isDefine]
                exact derived
              · rw [← split]
                exact found
            by_cases isSemicolon : next.kind = .semicolon
            · simp only [terminator_of_semicolon isSemicolon]
              exact ⟨token :: taken, function, [next], read, by rw [split]; rfl, rfl,
                Or.inl (congrArg (fun kind => [kind]) isSemicolon)⟩
            · simp only [terminator_of_other isSemicolon]
              exact ⟨token :: taken, function, [], read, by rw [split]; rfl, rfl,
                Or.inr (Nat.lt_succ_self _)⟩
    | rejected diagnostic remaining => exact Or.inl (recovered diagnostic remaining)
    | interrupted => rw [found] at decided; exact decided.elim
    | failed failure => rw [found] at decided; exact decided.elim
  · rw [if_neg isDefine]
    exact Or.inl (recovered _ (token :: rest))

/-- The functions have origins among the tokens, in this order and one after the other. -/
def Originate (tokens remaining : List Lexed) (functions : List Function) : Prop :=
  ∃ origins left, tokens = Origin.tokens origins ++ (left ++ remaining) ∧
    functions = origins.map Origin.function ∧ ∀ origin ∈ origins, origin.Read

namespace Originate

variable {tokens remaining : List Lexed} {functions : List Function}

theorem skip (originate : Originate tokens remaining functions) (taken : List Lexed) :
    Originate (taken ++ tokens) remaining functions := by
  obtain ⟨origins, left, rfl, rfl, read⟩ := originate
  cases origins with
  | nil =>
      refine ⟨[], taken ++ left, ?_, rfl, read⟩
      simp only [Origin.tokens, List.flatMap_nil, List.nil_append, List.append_assoc]
  | cons first origins =>
      refine ⟨⟨taken ++ first.skipped, first.span, first.function⟩ :: origins, left, ?_, rfl, ?_⟩
      · simp only [Origin.tokens, List.flatMap_cons, List.append_assoc]
      · obtain ⟨readFirst, readOthers⟩ := List.forall_mem_cons.mp read
        exact List.forall_mem_cons.mpr ⟨readFirst, readOthers⟩

theorem take
    (originate : Originate tokens remaining functions) {span : List Lexed} {function : Function}
    (read : (⟨[], span, function⟩ : Origin).Read) :
    Originate (span ++ tokens) remaining (function :: functions) := by
  obtain ⟨origins, left, rfl, rfl, readOthers⟩ := originate
  refine ⟨⟨[], span, function⟩ :: origins, left, ?_, rfl, List.forall_mem_cons.mpr ⟨read, readOthers⟩⟩
  simp only [Origin.tokens, List.flatMap_cons, List.nil_append, List.append_assoc]

end Originate

theorem Rounds.originate
    {findings later : Findings} {tokens remaining : List Lexed}
    (rounds : Rounds findings tokens later remaining) (closed : Closed tokens) :
    ∃ functions, later.functions = functions.reverse ++ findings.functions ∧
      Originate tokens remaining functions := by
  induction rounds with
  | none findings tokens => exact ⟨[], rfl, [], [], rfl, rfl, List.forall_mem_nil _⟩
  | @more findings later token rest remaining inside _ inductionHypothesis =>
      obtain ⟨functions, found, originate⟩ := inductionHypothesis (closed.round inside findings)
      obtain ⟨taken, split, _⟩ := round_takes closed.complete inside findings
      rcases round_origin closed.complete findings with
        ⟨unchanged, _⟩ | ⟨span, function, left, read, splitSpan, added, _⟩
      · rw [unchanged] at found
        rw [split]
        exact ⟨functions, found, originate.skip taken⟩
      · rw [splitSpan]
        refine ⟨function :: functions, ?_, (originate.skip left).take read⟩
        rw [found, added, List.reverse_cons, List.append_assoc, List.singleton_append]

theorem definition_moved
    {tokens rest : List Lexed} {function : Function}
    (accepted : Descent.definition tokens = .accepted function rest) (lines : Int) :
    Descent.definition (tokens.map (Lexed.moved lines)) =
      .accepted function (rest.map (Lexed.moved lines)) := by
  have changed (token : Lexed) :
      Alike (fun line other => other = line + lines) token (token.moved lines) := ⟨rfl, rfl, rfl⟩
  have extended := Extends.map_append (Lexed.moved lines) changed tokens []
  have follows := definition_follows extended
  rw [accepted, List.append_nil] at follows
  obtain ⟨other, others, same, rfl, later⟩ := follows.eq_accepted
  have moved := Extends.eq_map_append (Lexed.moved lines) (fun _ _ => Alike.eq_of) later
  rw [same, moved, List.append_nil]

theorem Rounds.definition
    {define semicolon : Lexed} {inner rest : List Lexed} {function : Function}
    (isDefine : define.kind = .define) (isSemicolon : semicolon.kind = .semicolon)
    (accepted : Descent.definition inner = .accepted function (semicolon :: rest))
    (findings : Findings) :
    Rounds findings (define :: inner) (findings.define function) rest := by
  have reads : Descent.round findings (define :: inner) = (findings.define function, rest) := by
    rw [Descent.round, Descent.item, if_pos isDefine, accepted]
    exact terminator_of_semicolon isSemicolon _ _
  apply Rounds.more
  · rw [isDefine]
    decide
  · rw [reads]
    exact Rounds.none _ _

/-- The tokens of an origin and a semicolon are read as its function, also on other lines. -/
theorem Origin.Read.alone
    {origin : Origin} (read : origin.Read) (lines : Int) {semicolon : Lexed}
    (isSemicolon : semicolon.kind = .semicolon) (rest : List Lexed) :
    ∃ later : Findings,
      Rounds {} (origin.span.map (Lexed.moved lines) ++ semicolon :: rest) later rest ∧
      later.functions = [origin.function] ∧ later.diagnostics = [] := by
  obtain ⟨define, taken, next, after, split, isDefine, _, accepted⟩ := read
  have stops : Stops semicolon.kind := by
    rw [isSemicolon]
    exact ⟨rfl, by decide⟩
  have isDefineMoved : (define.moved lines).kind = .define := isDefine
  have moved := definition_moved accepted lines
  rw [List.map_append, List.map_cons] at moved
  have alone := definition_replaced moved stops rest
  refine ⟨Findings.define {} origin.function, ?_, rfl, rfl⟩
  rw [split, List.map_cons, List.cons_append]
  exact Rounds.definition isDefineMoved isSemicolon alone {}

/-- A function is read from tokens with no other names than those that define it. -/
theorem Origin.Read.accepted
    {origin : Origin} (read : origin.Read) {named : String → Prop}
    (names : Names named origin.span) :
    ∃ tokens rest, Names named tokens ∧
      Descent.definition tokens = .accepted origin.function rest := by
  obtain ⟨define, taken, next, after, split, _, _, accepted⟩ := read
  let semicolon : Lexed := ⟨.semicolon, ";", 0⟩
  have alone := definition_replaced accepted (show Stops semicolon.kind from ⟨rfl, by decide⟩) []
  refine ⟨taken ++ [semicolon], [semicolon], ?_, alone⟩
  intro token member isName
  rcases List.mem_append.mp member with inside | last
  · apply names token _ isName
    rw [split]
    exact List.mem_cons_of_mem _ inside
  · rw [List.mem_singleton.mp last] at isName
    cases isName

/-- The body of a function has the shape of a body, with names from the tokens that define it. -/
theorem Origin.Read.body
    {origin : Origin} (read : origin.Read) {named : String → Prop}
    (names : Names named origin.span) : Body named origin.function.body := by
  obtain ⟨tokens, rest, namesAlone, alone⟩ := read.accepted names
  exact (definition_shape namesAlone).of_eq alone

end ExprWasm.Phrase

namespace ExprWasm.Compile

open Token (Lexed Lexer)
open Phrase (Body Derives Names Origin Rounds kinds)

section Text

variable {text : String} {tokens : List Lexed} {line : Int}
  (finishes : (Lexer.ofSource (Source.ofText Source.standardChunkSize text)).Finishes tokens line)

include finishes

theorem exists_origins :
    ∃ program origins left,
      (parse (Source.ofText Source.standardChunkSize text)).outcome = .ok program ∧
      tokens = Origin.tokens origins ++ left ∧
      program.functions = origins.map Origin.function ∧ ∀ origin ∈ origins, origin.Read := by
  have closed := closed_of_finishes finishes
  obtain ⟨later, rounds⟩ := Rounds.exist_to_end rfl closed {}
  obtain ⟨functions, found, origins, left, split, rfl, read⟩ := rounds.originate closed
  rw [← List.append_assoc] at split
  refine ⟨_, origins, left, parse_of_finishes finishes rounds, List.append_cancel_right split, ?_,
    read⟩
  rw [found, List.append_nil, List.reverse_reverse]

/-- Every text is read as a program whose functions have bodies, with names from the tokens. -/
theorem exists_program {named : String → Prop} (names : Names named tokens) :
    ∃ program, (parse (Source.ofText Source.standardChunkSize text)).outcome = .ok program ∧
      ∀ function ∈ program.functions, Body named function.body := by
  obtain ⟨program, origins, left, parsed, split, functions, read⟩ := exists_origins finishes
  refine ⟨program, parsed, ?_⟩
  intro function member
  rw [functions] at member
  obtain ⟨origin, inside, rfl⟩ := List.mem_map.mp member
  apply (read origin inside).body
  intro token inSpan
  apply names
  rw [split]
  apply List.mem_append_left
  exact List.mem_flatMap.mpr ⟨origin, inside, List.mem_append_right _ inSpan⟩

end Text

/-- Whatever errors a text has, the functions that are read from it come from consecutive tokens,
each from its own and in the order of the text. These are a definition of the grammar, and the piece
of the text that they stand for, with a semicolon after it, is read as this one function and without
error. -/
theorem parse_functions_originate (text : String) :
    ∃ program tokens line origins left,
      (parse (Source.ofText Source.standardChunkSize text)).outcome = .ok program ∧
      (Lexer.ofSource (Source.ofText Source.standardChunkSize text)).listing.tokens =
        tokens ++ [ending line] ∧
      tokens = Origin.tokens origins ++ left ∧
      program.functions = origins.map Origin.function ∧
      ∀ origin ∈ origins,
        (∃ define others, origin.span = define :: others ∧ define.kind = .define) ∧
        Derives .definition (kinds origin.span) ∧
        ∃ before piece after lines final,
          text = before ++ piece ++ after ∧
          (Lexer.ofSource (Source.ofText Source.standardChunkSize (piece ++ ";"))).listing.tokens =
            origin.span.map (Lexed.moved lines) ++ [⟨.semicolon, ";", final⟩, ending final] ∧
          (parse (Source.ofText Source.standardChunkSize (piece ++ ";"))).outcome =
            .ok ⟨[origin.function], []⟩ := by
  obtain ⟨tokens, line, finishes⟩ := Lexer.exists_finishes_ofText text
  obtain ⟨program, origins, left, parsed, split, functions, read⟩ := exists_origins finishes
  refine ⟨program, tokens, line, origins, left, parsed, finishes.listing, split, functions, ?_⟩
  intro origin member
  obtain ⟨define, others, next, after, begins, isDefine, derived, _⟩ := read origin member
  refine ⟨⟨define, others, begins, isDefine⟩, derived, ?_⟩
  obtain ⟨earlier, further, rfl⟩ := List.append_of_mem member
  have whole : Origin.tokens (earlier ++ origin :: further) ++ left =
      (Origin.tokens earlier ++ origin.skipped) ++
        (origin.span ++ (Origin.tokens further ++ left)) := by
    simp only [Origin.tokens, List.flatMap_append, List.flatMap_cons, List.append_assoc]
  rw [split, whole] at finishes
  obtain ⟨before, piece, rest, lines, final, splitText, finishesPiece⟩ :=
    finishes.piece (by rw [begins]; exact List.cons_ne_nil _ _)
  have isSemicolon : (⟨.semicolon, ";", final⟩ : Lexed).kind = .semicolon := rfl
  obtain ⟨alone, roundsAlone, function, silent⟩ :=
    (read origin member).alone lines isSemicolon [ending final]
  refine ⟨before, piece, rest, lines, final, splitText, ?_, ?_⟩
  · rw [finishesPiece.listing, List.append_assoc]
    rfl
  · rw [← List.singleton_append, ← List.append_assoc] at roundsAlone
    rw [parse_of_finishes finishesPiece roundsAlone, function, silent]
    rfl

end ExprWasm.Compile
