import ExprWasm.Proofs.Compile.Completion
import ExprWasm.Proofs.Phrase.Locality
import ExprWasm.Proofs.Token.Respaced

/-! The layout of a text does not matter.

Texts with the same words in the same order are compiled with the same result, up to the lines of
the diagnostics, whatever white space and comments stand between the words. -/

set_option autoImplicit false

namespace ExprWasm.Compile

open Phrase (Alike AlikeNotes Extends Rounds)
open Source (ofText standardChunkSize)
open Token (Lexed Lexer Respaced)

def unrelated (_ _ : Int) : Prop := True

theorem alike_of_word {token other : Lexed} (same : other.word = token.word) :
    Alike unrelated token other :=
  ⟨congrArg Prod.fst same, congrArg Prod.snd same, trivial⟩

/-- Texts with the same words have the same functions and the same complaints. -/
theorem parse_of_words
    {text other : String} {tokens others : List Lexed} {line further : Int}
    (finishes : (Lexer.ofSource (ofText standardChunkSize text)).Finishes tokens line)
    (finishesOther : (Lexer.ofSource (ofText standardChunkSize other)).Finishes others further)
    (same : others.map Lexed.word = tokens.map Lexed.word) :
    ∃ first second,
      (parse (ofText standardChunkSize text)).outcome = .ok first ∧
      (parse (ofText standardChunkSize other)).outcome = .ok second ∧
      second.functions = first.functions ∧
      second.diagnostics.map Diagnostic.message = first.diagnostics.map Diagnostic.message := by
  have closed := closed_of_finishes finishes
  have closedOther := closed_of_finishes finishesOther
  have extended : Extends (Alike unrelated) [] (tokens ++ [ending line]) (others ++ [ending further]) := by
    apply Extends.of_map_eq Lexed.word fun _ _ => alike_of_word
    rw [List.map_append, List.map_append, same]
    rfl
  obtain ⟨later, rounds⟩ := Rounds.exist_to_end rfl closed {}
  obtain ⟨final, rest, roundsOther, continues, reached⟩ :=
    rounds.follows closed extended ⟨rfl, Extends.stop⟩
  -- The other rounds end at a single token, and that is the last one.
  cases reached with
  | cons _ none =>
      cases none
      obtain ⟨taken, split, _⟩ := roundsOther.takes closedOther
      cases (List.append_inj' split rfl).2
      refine ⟨_, _, parse_of_finishes finishes rounds, parse_of_finishes finishesOther roundsOther,
        ?_, ?_⟩
      · rw [continues.functions, List.append_nil]
      · simp only [List.map_reverse]
        rw [Extends.map_eq Diagnostic.message (fun _ _ => AlikeNotes.message) continues.notes]

/-- The words of any text, laid out anew, are the words of the new text. Both texts are compiled,
and in the results only the diagnostics differ: the functions are the same, there is the same module
or none, and the same complaints are made in the same order, on other lines. -/
theorem layout_immaterial
    (text other filename : String)
    (respaced : Respaced false
      (Lexer.ofSource (ofText standardChunkSize text)).listing.tokens.dropLast other.toList) :
    (Lexer.ofSource (ofText standardChunkSize other)).listing.tokens.map Lexed.word =
        (Lexer.ofSource (ofText standardChunkSize text)).listing.tokens.map Lexed.word ∧
      ∃ first second,
        (compileSource (ofText standardChunkSize text) filename).outcome = .ok first ∧
        (compileSource (ofText standardChunkSize other) filename).outcome = .ok second ∧
        second = { first with diagnostics := second.diagnostics } ∧
        second.diagnostics.map Diagnostic.message = first.diagnostics.map Diagnostic.message := by
  obtain ⟨tokens, line, finishes⟩ := Lexer.exists_finishes_ofText text
  rw [finishes.listing, List.dropLast_concat] at respaced
  have words : ∀ token ∈ tokens, Token.Word token.kind token.lexeme.toList := by
    have plain := finishes
    rw [Lexer.ofSource_ofText] at plain
    exact plain.laidOut.words
  obtain ⟨others, further, finishesOther, sameWords⟩ := respaced.finishes words "" 1
  replace finishesOther :
      (Lexer.ofSource (ofText standardChunkSize other)).Finishes others further := by
    rw [Lexer.ofSource_ofText]
    exact Lexer.Finishes.of_next_eq (Lexer.next_facing_blank _ _ _ _).symm finishesOther
  obtain ⟨first, second, parsed, parsedOther, functions, messages⟩ :=
    parse_of_words finishes finishesOther sameWords
  have silent : second.diagnostics.isEmpty = first.diagnostics.isEmpty := by
    rw [← List.isEmpty_map (f := Diagnostic.message), messages, List.isEmpty_map]
  have sameTree : second.tree = first.tree := congrArg Tree.unitOf functions
  constructor
  · rw [finishes.listing, finishesOther.listing, List.map_append, List.map_append, sameWords]
    rfl
  · refine ⟨_, _, compileSource_of_program parsed filename,
      compileSource_of_program parsedOther filename, ?_, messages⟩
    rw [silent, sameTree, functions]

/-- Two symbols that would be one without the blank, and a number that ends with its point. -/
theorem brokenPair_respaced :
    Respaced false
        (Lexer.ofSource (ofText standardChunkSize "< >1.")).listing.tokens.dropLast
        "<#=\r>\t1.".toList ∧
      (Lexer.ofSource (ofText standardChunkSize "<#=\r>\t1.")).listing.tokens.map Lexed.word =
        (Lexer.ofSource (ofText standardChunkSize "< >1.")).listing.tokens.map Lexed.word ∧
      ∃ first second,
        (compileSource (ofText standardChunkSize "< >1.") "").outcome = .ok first ∧
        (compileSource (ofText standardChunkSize "<#=\r>\t1.") "").outcome = .ok second ∧
        second = { first with diagnostics := second.diagnostics } ∧
        second.diagnostics.map Diagnostic.message = first.diagnostics.map Diagnostic.message := by
  have number : (Lexer.facing ['1', '.'] ">" 1).Reads [⟨.number, "1.", 1⟩] (.facing [] "1." 1) :=
    @Lexer.Reads.more _ (.facing [] "1." 1) _ .number _ rfl (by decide) (.none _)
  have greater : (Lexer.facing [' ', '>', '1', '.'] "<" 1).Reads
      [⟨.greater, ">", 1⟩, ⟨.number, "1.", 1⟩] (.facing [] "1." 1) :=
    @Lexer.Reads.more _ (.facing ['1', '.'] ">" 1) _ .greater _ rfl (by decide) number
  have reads : (Lexer.facing (' ' :: "< >1.".toList) "" 1).Reads
      [⟨.less, "<", 1⟩, ⟨.greater, ">", 1⟩, ⟨.number, "1.", 1⟩] (.facing [] "1." 1) :=
    @Lexer.Reads.more _ (.facing [' ', '>', '1', '.'] "<" 1) _ .less _ rfl (by decide) greater
  have finishes : (Lexer.ofSource (ofText standardChunkSize "< >1.")).Finishes
      [⟨.less, "<", 1⟩, ⟨.greater, ">", 1⟩, ⟨.number, "1.", 1⟩] 1 := by
    rw [Lexer.ofSource_ofText]
    exact ⟨_, reads, rfl⟩
  have respaced : Respaced false
      (Lexer.ofSource (ofText standardChunkSize "< >1.")).listing.tokens.dropLast
      "<#=\r>\t1.".toList := by
    rw [finishes.listing, List.dropLast_concat]
    have comment : Token.Filler ['#', '=', '\r'] :=
      @Token.Filler.comment ['='] [] '\r' (List.forall_mem_singleton.mpr rfl) rfl .none
    exact .word .none nofun <| .word comment nofun <| .word (.blank rfl .none) nofun <| .last .none
  exact ⟨respaced, layout_immaterial _ _ "" respaced⟩

end ExprWasm.Compile
