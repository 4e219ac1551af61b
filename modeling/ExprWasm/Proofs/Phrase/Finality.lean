import ExprWasm.Proofs.Phrase.Course
import ExprWasm.Proofs.Token.Sentinel

/-! The end of the input is final.

A lexer that has come to a sentinel finds the end of the input at every call. So a source is read as
the text before its first sentinel, whatever follows, and a parser that has read its source to the
end finds nothing more in it. -/

set_option autoImplicit false

namespace ExprWasm.Phrase

open Source (Chunk Reader Reading items ofText standardChunkSize)
open Token (Lexer)

structure Run.Alike (run other : Run) : Prop where
  outcome : run.outcome = other.outcome
  functions : run.parser.functions = other.parser.functions
  diagnostics : run.parser.diagnostics = other.parser.diagnostics
  events : run.events = other.events

namespace Parser

def again (parser : Parser) : (times : Nat) → Parser
  | 0 => parser
  | times + 1 => (parser.again times).parse.parser

/-! ### Up to a sentinel -/

theorem parse_returns_iff (parser : Parser) :
    parser.parse.outcome = .ok () ↔ parser.lexer.listing.failure = none := by
  have agrees := parser.parseOnDemand_agrees
  generalize parser.parseOnDemand = drawn at agrees
  cases agrees with
  | complete outcome unfailed _ _ => exact ⟨fun _ => unfailed, fun _ => outcome⟩
  | interrupted outcome failed _ =>
      rw [outcome, failed]
      exact ⟨nofun, nofun⟩

theorem ofSource_alike
    {source other : List Chunk}
    (tokens : (Lexer.ofSource source).listing.tokens = (Lexer.ofSource other).listing.tokens)
    (failure : (Lexer.ofSource source).listing.failure = (Lexer.ofSource other).listing.failure)
    (earlier : List Diagnostic) :
    (ofSource source earlier).parse.Alike (ofSource other earlier).parse := by
  unfold ofSource parse
  simp only [tokens, failure]
  split <;> exact ⟨rfl, rfl, rfl, rfl⟩

/-! ### At the end -/

theorem parse_lexer (parser : Parser) : parser.parse.parser.lexer = parser.lexer.listing.lexer := by
  generalize read : program parser.findings parser.lexer.listing.tokens = result
  rw [parse_after read]

structure AtEnd (parser : Parser) : Prop where
  atSentinel : parser.lexer.lookahead.isSentinel = true
  lexeme : parser.lexer.lexeme = ""
  token : parser.token = .endOfInput

theorem parse_atEnd {parser : Parser} (returns : parser.parse.outcome = .ok ()) :
    parser.parse.parser.AtEnd := by
  have complete := (parse_returns_iff parser).mp returns
  have supplies := @Lexer.listing_supplies parser.lexer .noToken (by decide)
  obtain ⟨atSentinel, lexeme⟩ := supplies.atSentinel complete (by decide)
  rw [← parse_lexer] at atSentinel lexeme
  refine ⟨atSentinel, lexeme, ?_⟩
  have agrees := parser.parseOnDemand_agrees
  generalize parser.parseOnDemand = drawn at agrees
  cases agrees with
  | complete _ _ isEnding settles =>
      rw [settles.after]
      exact isEnding
  | interrupted outcome _ _ =>
      rw [outcome] at returns
      cases returns

/-- Such a parser stays as it is when it is run. -/
theorem AtEnd.parse {parser : Parser} (atEnd : parser.AtEnd) :
    parser.parse =
      ⟨.ok (), parser, [.sourceParsed parser.functions.length parser.diagnostics.length]⟩ := by
  obtain ⟨⟨reader, lexeme, lookahead, line⟩, token, functions, diagnostics⟩ := parser
  obtain ⟨atSentinel, rfl, rfl⟩ := atEnd
  have listed := Lexer.listing_of_reads (.none _) (Lexer.next_sentinel atSentinel)
  unfold Parser.parse
  simp [listed, program, programWithin, Lexer.lexed]

theorem AtEnd.again {parser : Parser} (atEnd : parser.AtEnd) (times : Nat) :
    parser.again times = parser := by
  induction times with
  | zero => rfl
  | succ times inductionHypothesis => rw [Parser.again, inductionHypothesis, atEnd.parse]

end Parser

/-! ### Sources -/

/-- A source is read like the text that it delivers before its first sentinel. -/
theorem read_as_text
    {source : List Chunk} {text : String} {reading : Reading Char}
    (taken : (Reader.ofSource source).take (text.toList.length + 1) =
      items text.toList ++ [.ok reading])
    (isSentinel : reading.isSentinel = true) :
    (Lexer.ofSource source).listing.tokens =
        (Lexer.ofSource (ofText standardChunkSize text)).listing.tokens ∧
      (Lexer.ofSource source).listing.failure = none := by
  rw [Lexer.ofSource_ofText]
  obtain ⟨stop, split, closes⟩ := Token.closes_of_take taken isSentinel
  have faces : (Lexer.ofSource source).Faces (' ' :: text.toList) := .character rfl split closes
  exact Lexer.listing_faces faces ""

/-- At a sentinel every call finds the end of the input and reads nothing. A source without a
failure before its first sentinel has the tokens of the text before it and is parsed like that text,
and the parser of a source that was parsed to the end only repeats its answer. -/
theorem end_of_input_is_final :
    (∀ lexer : Lexer, lexer.lookahead.isSentinel = true → ∀ calls,
      (lexer.after calls).next = (.ok .endOfInput, { lexer with lexeme := "" }) ∧
      (lexer.after calls).scan = (.ok .endOfInput, { lexer with lexeme := "" })) ∧
    (∀ (source : List Chunk) (text : String) (reading : Reading Char),
      (Reader.ofSource source).take (text.toList.length + 1) =
        items text.toList ++ [.ok reading] →
      reading.isSentinel = true →
      (Lexer.ofSource source).listing.failure = none ∧
      (Lexer.ofSource source).listing.tokens =
        (Lexer.ofSource (ofText standardChunkSize text)).listing.tokens ∧
      ∀ earlier,
        (Parser.ofSource source earlier).parse.outcome = .ok () ∧
        (Parser.ofSource source earlier).parse.Alike
          (Parser.ofSource (ofText standardChunkSize text) earlier).parse) ∧
    ∀ parser : Parser, parser.parse.outcome = .ok () → ∀ times,
      (parser.parse.parser.again times).parse.outcome = .ok () ∧
      (parser.parse.parser.again times).parse.parser = parser.parse.parser := by
  refine ⟨?_, ?_, ?_⟩
  · intro lexer atSentinel calls
    rw [Lexer.scan_eq_next, Lexer.after_next_sentinel atSentinel]
    exact ⟨rfl, rfl⟩
  · intro source text reading taken isSentinel
    obtain ⟨tokens, complete⟩ := read_as_text taken isSentinel
    obtain ⟨plainTokens, line, finishes⟩ := Lexer.exists_finishes_ofText text
    refine ⟨complete, tokens, fun earlier => ⟨?_, ?_⟩⟩
    · exact (Parser.parse_returns_iff _).mpr complete
    · exact Parser.ofSource_alike tokens (complete.trans finishes.failure.symm) earlier
  · intro parser returns times
    have atEnd := Parser.parse_atEnd returns
    rw [atEnd.again, atEnd.parse]
    exact ⟨rfl, rfl⟩

/-- A definition and half a character, then no data for once, then the other half. -/
def cutOff : List Chunk :=
  [.bytes (Source.Utf8.encode "def one() 1;".toList ++ [0xC3]), .noData, .bytes [0xA9]]

theorem cutOff_is_final :
    (Reader.ofSource cutOff).take 13 = items "def one() 1;".toList ++ [.ok .noData] ∧
    (Parser.ofSource cutOff []).parse.Alike
      (Parser.ofSource (ofText standardChunkSize "def one() 1;") []).parse ∧
    (∀ times, ((Parser.ofSource cutOff []).parse.parser.again times).parse.parser =
      (Parser.ofSource cutOff []).parse.parser) ∧
    ∀ calls, (Lexer.after ⟨.ofSource cutOff, "one", .noData, 1⟩ calls).next =
      (.ok .endOfInput, ⟨.ofSource cutOff, "", .noData, 1⟩) := by
  have taken : (Reader.ofSource cutOff).take 13 = items "def one() 1;".toList ++ [.ok .noData] := rfl
  obtain ⟨stays, asText, repeats⟩ := end_of_input_is_final
  obtain ⟨_, _, parsed⟩ := asText cutOff "def one() 1;" .noData taken rfl
  obtain ⟨returns, alike⟩ := parsed []
  refine ⟨taken, alike, fun times => (repeats _ returns times).2, fun calls => ?_⟩
  exact (stays ⟨.ofSource cutOff, "one", .noData, 1⟩ rfl calls).1

end ExprWasm.Phrase
