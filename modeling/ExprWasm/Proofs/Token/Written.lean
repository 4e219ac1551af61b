import ExprWasm.Proofs.Token.Pieces

/-! Texts that are written word by word.

A text is put together from words, blanks and characters that are words by themselves, and its
tokens are put together in the same way. -/

set_option autoImplicit false

namespace ExprWasm.Token

/-- The text is read as the tokens, all on one line, in front of every separator. -/
def Written (line : Int) (text : List Char) (tokens : List Lexed) : Prop :=
  ∀ after, Parted after → ∀ lexeme, ∃ final,
    (Lexer.facing (text ++ after) lexeme line).Reads tokens (Lexer.facing after final line)

/-- The characters that begin no longer word are words wherever they stand. -/
theorem spell_of_symbol
    {c : Char} {kind : Kind} (listed : (c, kind) ∈ symbols) (notLess : c ≠ '<') (notEqual : c ≠ '=')
    (text : List Char) : spell c text = ⟨kind, [c], text⟩ := by
  obtain ⟨noName, noDigit, _, _⟩ := symbols_apart _ listed
  have found := (ofSymbol?_eq_some_iff notLess notEqual).mpr listed
  simp only at noName noDigit
  simp only [spell, noName, noDigit, if_neg notLess, if_neg notEqual, found, Option.getD_some,
    Bool.false_eq_true, if_false]

namespace Written

variable {line : Int} {text : List Char} {tokens : List Lexed}

theorem nil : Written line [] [] := by
  intro after _ lexeme
  exact ⟨lexeme, Lexer.Reads.none _⟩

theorem word {kind : Kind} {word : List Char} (isWord : Word kind word) :
    Written line word [⟨kind, String.ofList word, line⟩] := by
  intro after parted lexeme
  have read := Lexer.next_of_word isWord parted lexeme line
  have single := Lexer.Reads.more read isWord.kind_ne_endOfInput (Lexer.Reads.none _)
  exact ⟨_, single⟩

theorem append
    {c : Char} {further : List Char} {others : List Lexed} (written : Written line text tokens)
    (isSeparator : separates c = true) (writtenFurther : Written line (c :: further) others) :
    Written line (text ++ c :: further) (tokens ++ others) := by
  intro after parted lexeme
  obtain ⟨middle, reads⟩ := written (c :: (further ++ after)) (Parted.cons isSeparator _) lexeme
  obtain ⟨final, readsFurther⟩ := writtenFurther after parted middle
  rw [List.append_assoc]
  exact ⟨final, reads.trans readsFurther⟩

theorem blank (written : Written line text tokens) (nonempty : tokens ≠ []) :
    Written line (' ' :: text) tokens := by
  intro after parted lexeme
  obtain ⟨final, reads⟩ := written after parted lexeme
  have same := Lexer.next_facing_blank (text ++ after) lexeme lexeme line
  exact ⟨final, reads.of_next_eq same.symm nonempty⟩

theorem spaced
    {further : List Char} {others : List Lexed} (written : Written line text tokens)
    (writtenFurther : Written line further others) (nonempty : others ≠ []) :
    Written line (text ++ ' ' :: further) (tokens ++ others) :=
  written.append rfl (writtenFurther.blank nonempty)

theorem keyword
    {reserved : String} {kind : Kind} (listed : (reserved, kind) ∈ keywords)
    (written : Written line text tokens) (nonempty : tokens ≠ []) :
    Written line (reserved.toList ++ ' ' :: text) (⟨kind, reserved, line⟩ :: tokens) := by
  have all := (word (Word.keyword listed)).spaced written nonempty
  rw [String.ofList_toList] at all
  exact all

theorem symbol
    {c : Char} {kind : Kind} (listed : (c, kind) ∈ symbols) (notLess : c ≠ '<') (notEqual : c ≠ '=')
    (written : Written line text tokens) :
    Written line (c :: text) (⟨kind, String.ofList [c], line⟩ :: tokens) := by
  intro after parted lexeme
  obtain ⟨_, _, noBlank, noComment⟩ := symbols_apart _ listed
  have read := Lexer.next_of_skip (skip_of_begins noBlank noComment line (text ++ after)) lexeme
  rw [spell_of_symbol listed notLess notEqual] at read
  obtain ⟨final, reads⟩ := written after parted (String.ofList [c])
  have all := Lexer.Reads.more read (Word.symbol listed).kind_ne_endOfInput reads
  exact ⟨final, all⟩

theorem parenthesized (written : Written line text tokens) :
    Written line ('(' :: (text ++ [')']))
      (⟨.leftParenthesis, "(", line⟩ :: (tokens ++ [⟨.rightParenthesis, ")", line⟩])) := by
  have closing : Written line [')'] [⟨.rightParenthesis, ")", line⟩] :=
    symbol (by decide) (by decide) (by decide) nil
  exact symbol (by decide) (by decide) (by decide) (written.append rfl closing)

/-- A text with nothing after it. -/
theorem finishes_alone {text : String} (written : Written 1 text.toList tokens) :
    (Lexer.ofSource (Source.ofText Source.standardChunkSize text)).Finishes tokens 1 := by
  obtain ⟨final, reads⟩ := written [] nofun ""
  rw [List.append_nil] at reads
  rw [Lexer.ofSource_ofText]
  exact Lexer.Finishes.of_next_eq (Lexer.next_facing_blank _ _ _ _).symm ⟨_, reads, rfl⟩

/-- A text that a semicolon ends. -/
theorem finishes {text : String} (written : Written 1 text.toList tokens) :
    (Lexer.ofSource (Source.ofText Source.standardChunkSize (text ++ ";"))).Finishes
      (tokens ++ [⟨.semicolon, ";", 1⟩]) 1 := by
  obtain ⟨final, reads⟩ := written [';'] (Parted.cons rfl []) ""
  have all := Lexer.Finishes.after reads (Lexer.Finishes.semicolon final 1)
  rw [Lexer.ofSource_ofText, String.toList_append]
  exact Lexer.Finishes.of_next_eq (Lexer.next_facing_blank _ _ _ _).symm all

end Written

end ExprWasm.Token
