import ExprWasm.Proofs.Compile.Chunking
import ExprWasm.Proofs.Compile.Completion

/-! Sources that are compiled one after the other into one bounded sink.

Whatever the sources are, the sink holds the first lines of all their modules, as many as it has
room for. The source whose lines do not fit fails and so does every later one with a module, since
no module is without lines. A source without a module is answered as by itself. -/

set_option autoImplicit false

namespace ExprWasm.Wat

open ExprWasm.Tree (Node)

def sinkFull : Failure :=
  .system (.ofText "sink full")

/-- A sink that was given some texts and kept as many as it has room for. -/
def Sink.given (capacity : Nat) (texts : List String) : Sink :=
  { writes := (texts.take capacity).toArray, capacity := some capacity }

namespace Sink

theorem given_isFull (capacity : Nat) (texts : List String) :
    (given capacity texts).isFull = decide (capacity ≤ texts.length) := by
  have size : (given capacity texts).writes.size = min capacity texts.length := by
    rw [given, List.size_toArray, List.length_take]
  rw [isFull, size]
  change decide (capacity ≤ min capacity texts.length) = _
  rw [decide_eq_decide]
  omega

theorem given_of_full {capacity : Nat} {texts : List String} (full : capacity ≤ texts.length)
    (more : List String) : given capacity (texts ++ more) = given capacity texts := by
  rw [given, given, List.take_append_of_le_length full]

/-- One write: the text is kept if there is room, and refused otherwise. -/
theorem write_given (capacity : Nat) (texts : List String) (text : String) :
    (given capacity texts).write text =
      (if capacity < texts.length + 1 then .error sinkFull else .ok (),
        given capacity (texts ++ [text])) := by
  rw [write, given_isFull]
  by_cases full : capacity ≤ texts.length
  · rw [decide_eq_true full, if_pos rfl, if_pos (Nat.lt_succ_of_le full), given_of_full full]
    rfl
  · have room : texts.length < capacity := Nat.lt_of_not_le full
    have whole : texts.take capacity = texts := List.take_of_length_le (Nat.le_of_lt room)
    have longer : (texts ++ [text]).take capacity = texts ++ [text] := by
      apply List.take_of_length_le
      rw [List.length_append]
      exact room
    rw [decide_eq_false full, if_neg Bool.false_ne_true, if_neg (Nat.not_lt.mpr room), given, given,
      whole, longer]
    simp

/-- The lines of a module: those that fit are kept, and the first that does not ends the run. -/
theorem writeLines_given (capacity : Nat) (earlier lines : List String) (nonempty : lines ≠ []) :
    (given capacity earlier).writeLines lines =
      (if capacity < earlier.length + lines.length then .error sinkFull else .ok (),
        given capacity (earlier ++ terminated lines)) := by
  induction lines generalizing earlier with
  | nil => exact absurd rfl nonempty
  | cons line rest inductionHypothesis =>
      rw [writeLines, write_given]
      by_cases full : capacity < earlier.length + 1
      · have exceeds : capacity < earlier.length + (line :: rest).length := by
          rw [List.length_cons]
          omega
        have kept := given_of_full (Nat.le_of_lt_succ full)
        rw [if_pos full, if_pos exceeds, kept, kept]
      · rw [if_neg full]
        cases rest with
        | nil => rw [List.length_singleton, if_neg full]; rfl
        | cons next others =>
            have further := inductionHypothesis (earlier ++ [line ++ "\n"]) (List.cons_ne_nil _ _)
            rw [List.length_append, List.length_singleton, Nat.add_right_comm] at further
            simp only
            rw [further, List.append_assoc]
            rfl

theorem writeTree_given {node : Node} (complete : (lines node).failure = none)
    (nonempty : (lines node).texts ≠ []) (capacity : Nat) (earlier : List String) :
    (given capacity earlier).writeTree node =
      (if capacity < (earlier ++ terminated (lines node).texts).length then .error sinkFull
        else .ok (),
        given capacity (earlier ++ terminated (lines node).texts)) := by
  have counted : (earlier ++ terminated (lines node).texts).length =
      earlier.length + (lines node).texts.length := by
    rw [List.length_append, terminated, List.length_map]
  rw [writeTree, writeLines_given capacity earlier _ nonempty, complete, counted]
  by_cases exceeds : capacity < earlier.length + (lines node).texts.length
  · rw [if_pos exceeds]
  · rw [if_neg exceeds]

end Sink

end ExprWasm.Wat

namespace ExprWasm.Compile

open Source (Chunk Raises Utf8.encode)
open Wat (Sink sinkFull terminated)

/-! ### One source -/

/-- What a source adds to a sink without a bound: the lines of its module, each with a line feed,
and nothing if it has no module. -/
def moduleWrites (source : List Chunk) : List String :=
  match (parse source).outcome with
  | .error _ => []
  | .ok program =>
      if program.diagnostics.isEmpty then terminated (Wat.lines program.tree).texts else []

inductive Answered (capacity : Nat) (earlier : List String) (source : List Chunk) :
    Except Failure (List Diagnostic) → Sink → Prop where
  /-- A source that cannot be read fails in its own way and leaves the sink alone. -/
  | unreadable {failure : Failure} (failed : (parse source).outcome = .error failure)
      (raised : Raises source failure) :
      Answered capacity earlier source (.error failure) (.given capacity earlier)
  /-- Diagnostics are returned, and the sink is left alone. -/
  | diagnosed {program : Program} (parsed : (parse source).outcome = .ok program)
      (broken : program.diagnostics ≠ []) :
      Answered capacity earlier source (.ok program.diagnostics) (.given capacity earlier)
  /-- There is room for all lines of the module. -/
  | delivered {program : Program} (parsed : (parse source).outcome = .ok program)
      (silent : program.diagnostics = [])
      (fits : (earlier ++ moduleWrites source).length ≤ capacity) :
      Answered capacity earlier source (.ok []) (.given capacity (earlier ++ moduleWrites source))
  /-- There is not: the lines that fit are kept, and the next one fails. -/
  | refused {program : Program} (parsed : (parse source).outcome = .ok program)
      (silent : program.diagnostics = [])
      (exceeds : capacity < (earlier ++ moduleWrites source).length) :
      Answered capacity earlier source (.error sinkFull)
        (.given capacity (earlier ++ moduleWrites source))

section Silent

variable {source : List Chunk} {program : Program} (parsed : (parse source).outcome = .ok program)

include parsed

theorem moduleWrites_of_silent (silent : program.diagnostics = []) :
    moduleWrites source = terminated (Wat.lines program.tree).texts := by
  simp only [moduleWrites, parsed, silent, List.isEmpty_nil, if_true]

theorem moduleWrites_of_broken (broken : program.diagnostics ≠ []) : moduleWrites source = [] := by
  have occupied : program.diagnostics.isEmpty = false := List.isEmpty_eq_false_iff.mpr broken
  simp only [moduleWrites, parsed, occupied, Bool.false_eq_true, if_false]

end Silent

theorem moduleWrites_of_error {source : List Chunk} {failure : Failure}
    (failed : (parse source).outcome = .error failure) : moduleWrites source = [] := by
  simp only [moduleWrites, failed]

theorem compileToSink_answered (capacity : Nat) (earlier : List String) (source : List Chunk) :
    Answered capacity earlier source
      (compileToSink source (.given capacity earlier)).1.outcome
      (compileToSink source (.given capacity earlier)).2 := by
  rcases parse_cases source with ⟨program, parsed⟩ | ⟨failure, failed, raised⟩
  · by_cases silent : program.diagnostics = []
    · have nonempty : (Wat.lines program.tree).texts ≠ [] := by
        obtain ⟨rest, opened⟩ := Wat.lines_unit program.functions
        rw [Program.tree, opened]
        exact List.cons_ne_nil _ _
      have written := Sink.writeTree_given (program_emittable parsed) nonempty capacity earlier
      rw [← moduleWrites_of_silent parsed silent] at written
      simp only [compileToSink, parsed, silent, List.isEmpty_nil, if_true, written]
      by_cases exceeds : capacity < (earlier ++ moduleWrites source).length
      · simp only [if_pos exceeds]
        exact Answered.refused parsed silent exceeds
      · simp only [if_neg exceeds]
        exact Answered.delivered parsed silent (Nat.le_of_not_lt exceeds)
    · have occupied : program.diagnostics.isEmpty = false := List.isEmpty_eq_false_iff.mpr silent
      simp only [compileToSink, parsed, occupied, Bool.false_eq_true, if_false]
      exact Answered.diagnosed parsed silent
  · simp only [compileToSink, failed]
    exact Answered.unreadable failed raised

/-- In every case the sink was given the lines of the module, if there is one. -/
theorem Answered.sink_eq
    {capacity : Nat} {earlier : List String} {source : List Chunk}
    {answer : Except Failure (List Diagnostic)} {after : Sink}
    (answered : Answered capacity earlier source answer after) :
    after = .given capacity (earlier ++ moduleWrites source) := by
  cases answered with
  | unreadable failed _ => rw [moduleWrites_of_error failed, List.append_nil]
  | diagnosed parsed broken => rw [moduleWrites_of_broken parsed broken, List.append_nil]
  | delivered => rfl
  | refused => rfl

/-- Bytes are answered as undecodable exactly if they are the encoding of no text. -/
theorem Answered.undecodable_iff
    {capacity : Nat} {earlier : List String} {pieces : List (List UInt8)}
    {answer : Except Failure (List Diagnostic)} {after : Sink}
    (answered : Answered capacity earlier (pieces.map .bytes) answer after)
    (nonempty : ∀ piece ∈ pieces, piece ≠ []) :
    (∃ offset reason, answer = .error (.undecodable offset reason)) ↔
      ¬∃ text : String, Utf8.encode text.toList = pieces.flatten := by
  constructor
  · rintro ⟨offset, reason, rfl⟩ ⟨text, encodes⟩
    obtain ⟨⟨program, parsed⟩, _⟩ := text_compiles text unnamed
    rw [← parse_of_encoding nonempty encodes] at parsed
    cases answered with
    | unreadable failed _ =>
        rw [parsed] at failed
        cases failed
  · intro noText
    rw [← Source.Utf8.malformed?_eq_none_iff] at noText
    obtain ⟨malformed, found⟩ := Option.ne_none_iff_exists'.mp noText
    have refused := parse_of_malformed nonempty found
    cases answered with
    | unreadable failed _ =>
        rw [refused] at failed
        cases failed
        exact ⟨_, _, rfl⟩
    | diagnosed parsed _ | delivered parsed _ _ | refused parsed _ _ =>
        rw [refused] at parsed
        cases parsed

/-! ### All sources -/

structure Compiled where
  answers : List (Except Failure (List Diagnostic))
  sink : Sink

/-- Compiles sources one after the other into one sink, also after a source that failed. -/
def compileEach (sink : Sink) : List (List Chunk) → Compiled
  | [] => ⟨[], sink⟩
  | source :: rest =>
      let compiled := compileToSink source sink
      let others := compileEach compiled.2 rest
      ⟨compiled.1.outcome :: others.answers, others.sink⟩

theorem compileEach_cons (sink : Sink) (source : List Chunk) (rest : List (List Chunk)) :
    compileEach sink (source :: rest) =
      ⟨(compileToSink source sink).1.outcome ::
          (compileEach (compileToSink source sink).2 rest).answers,
        (compileEach (compileToSink source sink).2 rest).sink⟩ := rfl

section Capacity

variable (capacity : Nat)

theorem compileToSink_sink (earlier : List String) (source : List Chunk) :
    (compileToSink source (.given capacity earlier)).2 =
      .given capacity (earlier ++ moduleWrites source) :=
  (compileToSink_answered capacity earlier source).sink_eq

theorem compileEach_sink (earlier : List String) (sources : List (List Chunk)) :
    (compileEach (.given capacity earlier) sources).sink =
      .given capacity (earlier ++ sources.flatMap moduleWrites) := by
  induction sources generalizing earlier with
  | nil => rw [compileEach, List.flatMap_nil, List.append_nil]
  | cons source rest inductionHypothesis =>
      rw [compileEach_cons, compileToSink_sink, inductionHypothesis, List.append_assoc,
        List.flatMap_cons]

theorem compileEach_answers (earlier : List String) (before after : List (List Chunk))
    (source : List Chunk) :
    (compileEach (.given capacity earlier) (before ++ source :: after)).answers[before.length]? =
      some (compileToSink source
        (.given capacity (earlier ++ before.flatMap moduleWrites))).1.outcome := by
  induction before generalizing earlier with
  | nil =>
      rw [List.flatMap_nil, List.append_nil]
      rfl
  | cons first rest inductionHypothesis =>
      rw [List.cons_append, compileEach_cons, compileToSink_sink, List.length_cons,
        List.getElem?_cons_succ, inductionHypothesis, List.append_assoc, List.flatMap_cons]

/-- Sources are compiled one after the other into a sink that has room for so many writes. In the
end it holds the first lines of all modules in order, as many as it has room for. Each source is
answered: one without diagnostics fails exactly if the lines of all modules up to its own are too
many for the sink, and any other is answered as by itself and leaves the sink as it is. Bytes that
are no UTF-8 are refused as such. -/
theorem sharedSink_keeps_first_lines (sources : List (List Chunk)) :
    (compileEach { capacity := some capacity } sources).sink.writes.toList =
        (sources.flatMap moduleWrites).take capacity ∧
      ∀ before source after, sources = before ++ source :: after →
        ∃ answer,
          (compileEach { capacity := some capacity } sources).answers[before.length]? =
            some answer ∧
          (compileEach { capacity := some capacity } before).sink =
            .given capacity (before.flatMap moduleWrites) ∧
          Answered capacity (before.flatMap moduleWrites) source answer
            (compileEach { capacity := some capacity } (before ++ [source])).sink ∧
          ∀ pieces : List (List UInt8), (∀ piece ∈ pieces, piece ≠ []) →
            source = pieces.map .bytes →
            ((∃ offset reason, answer = .error (.undecodable offset reason)) ↔
              ¬∃ text : String, Utf8.encode text.toList = pieces.flatten) := by
  have fresh : ({ capacity := some capacity } : Sink) = .given capacity [] := by
    rw [Sink.given, List.take_nil]
  rw [fresh]
  constructor
  · rw [compileEach_sink, List.nil_append]
    rfl
  · rintro before source after rfl
    have answered := compileToSink_answered capacity (before.flatMap moduleWrites) source
    have later : (compileEach (.given capacity []) (before ++ [source])).sink =
        (compileToSink source (.given capacity (before.flatMap moduleWrites))).2 := by
      rw [compileEach_sink, compileToSink_sink, List.flatMap_append, List.flatMap_singleton,
        List.nil_append]
    refine ⟨_, compileEach_answers capacity [] before after source, ?_, ?_, ?_⟩
    · rw [compileEach_sink, List.nil_append]
    · rw [later, List.nil_append]
      exact answered
    · rintro pieces nonempty rfl
      exact answered.undecodable_iff nonempty

end Capacity

theorem moduleWrites_of_empty : moduleWrites [] = ["(module\n", ")\n"] := by
  have parsed : (parse []).outcome = .ok ⟨[], []⟩ := by cbv
  have pieces : Wat.instructions.pieces (.unit []) = .ok [.text "(module", .text ")"] := rfl
  have lines : (Wat.lines (.unit [])).texts = ["(module", ")"] := by
    rw [Wat.lines, Wat.instructions.flatten_of_pieces pieces, Wat.instructions.flattenAll_text,
      Wat.instructions.flattenAll_text, Wat.instructions.flattenAll_nil]
    rfl
  rw [moduleWrites_of_silent parsed rfl]
  exact congrArg terminated lines

/-- Two modules of two lines each, and between them a byte that begins no character and a name where
a definition should be. -/
def mixedSources : List (List Chunk) :=
  [[], [.bytes [0xFF]], [.bytes [0x78]], []]

/-- The second module is cut off after its first line, and the byte is refused although there is
room. -/
theorem mixedSources_share_sink :
    (compileEach { capacity := some 3 } mixedSources).sink.writes.toList =
        ["(module\n", ")\n", "(module\n"] ∧
      ∃ offset reason, (compileEach { capacity := some 3 } mixedSources).answers[1]? =
        some (.error (.undecodable offset reason)) := by
  obtain ⟨held, answered⟩ := sharedSink_keeps_first_lines 3 mixedSources
  obtain ⟨answer, found, _, _, undecodable⟩ :=
    answered [[]] [.bytes [0xFF]] [[.bytes [0x78]], []] rfl
  have nonempty : ∀ piece ∈ ([[0xFF]] : List (List UInt8)), piece ≠ [] := by decide
  have noText : ¬∃ text : String, Utf8.encode text.toList = ([[0xFF]] : List (List UInt8)).flatten := by
    rw [← Source.Utf8.malformed?_eq_none_iff]
    decide
  obtain ⟨offset, reason, rfl⟩ := (undecodable [[0xFF]] nonempty rfl).mpr noText
  refine ⟨?_, offset, reason, found⟩
  have unread : moduleWrites [.bytes [0xFF]] = [] := by decide +kernel
  have diagnosed : moduleWrites [.bytes [0x78]] = [] := by decide +kernel
  rw [held, mixedSources, List.flatMap_cons, List.flatMap_cons, List.flatMap_cons, List.flatMap_cons,
    unread, diagnosed, moduleWrites_of_empty]
  rfl

end ExprWasm.Compile
