import ExprWasm.Proofs.Compile.Names
import ExprWasm.Proofs.Phrase.Course
import ExprWasm.Proofs.Phrase.Moves
import ExprWasm.Proofs.Text.Unquoted

/-! What is logged while a program is read, and that each of it is one line.

The log tells of the functions and the diagnostics of the program, of tokens that were skipped, and
of the end. Names are words of the source and the messages of diagnostics are fixed, so none of it
breaks a line. -/

set_option autoImplicit false

namespace ExprWasm.Phrase

open Token (Kind Lexed)
open ExprWasm.Tree (Function)

inductive Tells (functions : List Function) (diagnostics : List Diagnostic) : Event → Prop where
  | diagnosed {diagnostic : Diagnostic} (member : diagnostic ∈ diagnostics) :
      Tells functions diagnostics (.diagnosed diagnostic)
  | recovered (skipped : Nat) (reached : Kind) :
      Tells functions diagnostics (.recovered skipped reached)
  | defined {function : Function} (member : function ∈ functions) :
      Tells functions diagnostics (.definitionParsed function.name)
  | summed (definitions errors : Nat) :
      Tells functions diagnostics (.sourceParsed definitions errors)

theorem Tells.mono
    {functions more : List Function} {diagnostics others : List Diagnostic} {event : Event}
    (tells : Tells functions diagnostics event) (found : functions ⊆ more)
    (noted : diagnostics ⊆ others) : Tells more others event := by
  cases tells with
  | diagnosed member => exact Tells.diagnosed (noted member)
  | recovered skipped reached => exact Tells.recovered skipped reached
  | defined member => exact Tells.defined (found member)
  | summed definitions errors => exact Tells.summed definitions errors

namespace Findings

def Told (findings : Findings) : Prop :=
  ∀ event ∈ findings.events, Tells findings.functions findings.diagnostics event

variable {findings : Findings}

theorem Told.diagnose (told : findings.Told) (diagnostic : Diagnostic) :
    (findings.diagnose diagnostic).Told := by
  refine List.forall_mem_cons.mpr ⟨Tells.diagnosed (List.mem_cons_self ..), ?_⟩
  intro event member
  exact (told event member).mono (List.Subset.refl _) (List.subset_cons_self _ _)

theorem Told.define (told : findings.Told) (function : Function) :
    (findings.define function).Told := by
  refine List.forall_mem_cons.mpr ⟨Tells.defined (List.mem_cons_self ..), ?_⟩
  intro event member
  exact (told event member).mono (List.subset_cons_self _ _) (List.Subset.refl _)

theorem Told.recover (told : findings.Told) (tokens : List Lexed) :
    (recover findings tokens).1.Told := by
  unfold Phrase.recover
  split
  · exact told
  · exact told
  · exact List.forall_mem_cons.mpr ⟨Tells.recovered _ _, told⟩

theorem Told.item
    (told : findings.Told) {allowance : Nat} {tokens rest : List Lexed} {later : Findings}
    (read : itemWithin allowance findings tokens = .ok (later, rest)) : later.Told := by
  unfold itemWithin at read
  split at read
  · cases read
  · split at read
    · split at read
      · cases read
        exact told.define _
      · rename_i diagnostic remaining _
        have recovered := (told.diagnose diagnostic).recover remaining
        rw [Except.ok.inj read] at recovered
        exact recovered
      · cases read
      · cases read
    · rename_i token remaining _
      have recovered := (told.diagnose (Complaint.definitionExpected.about token)).recover
        (token :: remaining)
      rw [Except.ok.inj read] at recovered
      exact recovered

theorem Told.terminator (told : findings.Told) (tokens : List Lexed) :
    (terminator findings tokens).1.Told := by
  unfold Phrase.terminator
  split
  · exact told
  · split
    · exact told
    · exact told.diagnose _

theorem Told.programWithin
    (told : findings.Told) (allowance items : Nat) (tokens : List Lexed) :
    (programWithin allowance items findings tokens).1.Told := by
  induction items generalizing findings tokens with
  | zero => exact told
  | succ items inductionHypothesis =>
      unfold Phrase.programWithin
      split
      · exact told
      · exact told
      · rename_i token rest same
        cases same
        split
        · exact told
        · split
          · exact told
          · rename_i later after read
            exact inductionHypothesis ((told.item read).terminator after) _

end Findings

theorem Parser.parse_tells (parser : Parser) :
    ∀ event ∈ parser.parse.events,
      Tells parser.parse.parser.functions parser.parse.parser.diagnostics event := by
  cases read : program parser.findings parser.lexer.listing.tokens with
  | mk found ending =>
      have start : parser.findings.Told := List.forall_mem_nil _
      have told : found.Told := by
        have whole := start.programWithin (allowanceFor parser.lexer.listing.tokens)
          (parser.lexer.listing.tokens.length + 1) parser.lexer.listing.tokens
        change (program parser.findings parser.lexer.listing.tokens).1.Told at whole
        rw [read] at whole
        exact whole
      have tells : ∀ event ∈ found.events.reverse,
          Tells found.functions.reverse found.diagnostics.reverse event := by
        intro event member
        exact (told event (List.mem_reverse.mp member)).mono (fun _ => List.mem_reverse.mpr)
          (fun _ => List.mem_reverse.mpr)
      rw [parse_after read]
      unfold findings at read
      unfold parse
      simp only [read]
      split
      · exact tells
      · exact tells
      · intro event member
        rw [List.reverse_cons] at member
        rcases List.mem_append.mp member with earlier | last
        · exact tells event earlier
        · rw [List.mem_singleton.mp last]
          exact Tells.summed _ _

end ExprWasm.Phrase

namespace ExprWasm.Compile

open Source (Chunk)
open Token (Lexer)
open Phrase (Complaint Findings Note Parser Tells)
open Text (Unbroken)

theorem natural_unbroken (value : Nat) : Unbroken (toString value) :=
  (Text.natural_printable value).unbroken

theorem integer_unbroken (value : Int) : Unbroken (toString value) :=
  (Text.integer_printable value).unbroken

theorem name_unbroken {name : String} (spelled : SpelledName name) : Unbroken name := by
  intro member
  have part := spelled.nameParts '\n' member
  cases part

theorem kind_unbroken (kind : Token.Kind) : Unbroken kind.name := by
  cases kind <;> decide

theorem complaint_unbroken (complaint : Complaint) : Unbroken complaint.text := by
  cases complaint <;> decide

section Program

variable {source : List Chunk} {program : Program}
  (parsed : (parse source).outcome = .ok program)

include parsed

theorem parse_tells : ∀ event ∈ (parse source).events,
    Tells program.functions program.diagnostics event := by
  have tells := (Parser.ofSource source []).parse_tells
  unfold parse at parsed ⊢
  simp only at parsed ⊢
  cases ended : (Parser.ofSource source []).parse.outcome with
  | error failure =>
      rw [ended] at parsed
      cases parsed
  | ok =>
      rw [ended] at parsed
      cases parsed
      exact tells

/-- Every diagnostic has the message of a complaint. -/
theorem diagnostics_worded : ∀ diagnostic ∈ program.diagnostics,
    ∃ complaint : Complaint, diagnostic.message = complaint.text := by
  have agrees := (Parser.ofSource source []).parseOnDemand_agrees
  generalize returns : (Parser.ofSource source []).parseOnDemand = drawn at agrees
  unfold parse at parsed
  cases agrees with
  | interrupted outcome _ _ =>
      simp only [outcome] at parsed
      cases parsed
  | @complete final outcome _ _ settles =>
      simp only [outcome, settles.after] at parsed
      cases parsed
      intro diagnostic member
      change diagnostic ∈ [] ++ (final.notes.map Note.diagnostic).reverse at member
      rw [List.nil_append, List.mem_reverse] at member
      rcases List.mem_map.mp member with ⟨note, noted, rfl⟩
      rcases (Parser.parseOnDemand_orderly returns).about note noted with
        ⟨complaint, lookahead, before, rfl⟩
      exact ⟨complaint, rfl⟩

theorem message_unbroken
    {diagnostic : Diagnostic} (member : diagnostic ∈ program.diagnostics) :
    Unbroken diagnostic.message := by
  rcases diagnostics_worded parsed diagnostic member with ⟨complaint, worded⟩
  rw [worded]
  exact complaint_unbroken complaint

theorem diagnostic_unbroken
    {diagnostic : Diagnostic} (member : diagnostic ∈ program.diagnostics) :
    Unbroken diagnostic.text :=
  ((message_unbroken parsed member).append (by decide)).append (integer_unbroken _)

/-- What is logged while a program is read is no warning and one line. -/
theorem event_unbroken {event : Event} (member : event ∈ (parse source).events) :
    event.isWarning = false ∧ Unbroken event.message := by
  cases parse_tells parsed event member with
  | @diagnosed diagnostic noted =>
      have line := Unbroken.append (by decide : Unbroken "line ") (integer_unbroken diagnostic.line)
      exact ⟨rfl, (line.append (by decide)).append (message_unbroken parsed noted)⟩
  | recovered skipped reached =>
      have skips := Unbroken.append (by decide : Unbroken "Recovery skipped ")
        (natural_unbroken skipped)
      exact ⟨rfl, (skips.append (by decide)).append (kind_unbroken reached)⟩
  | @defined function found =>
      have name := name_unbroken (program_named parsed function found).1.name
      exact ⟨rfl, (Unbroken.append (by decide) name).append (by decide)⟩
  | summed definitions errors =>
      have first := Unbroken.append (by decide : Unbroken "Parsed ") (natural_unbroken definitions)
      have second := (first.append (by decide : Unbroken " definitions, ")).append
        (natural_unbroken errors)
      exact ⟨rfl, second.append (by decide)⟩

end Program

end ExprWasm.Compile
